import FisheyeDock.Settings.File

/-! # Settings that come with the dock

    A settings document is built into the dock.  It gives every value that settings have and no flag,
    and holds where the user has no document. -/

namespace FisheyeDock.Settings

/-- The lines of the document. -/
def embeddedLines : List String :=
  [ "// This config is in the KDL format: https://kdl.dev",
    "// \"/\x2d\" comments out the following node.",
    "",
    "// Magnification of the icon under the pointer and its neighbors.",
    "magnification \x7b",
    "    // Uncomment this line to turn off the magnification engine entirely.",
    "    // off",
    "",
    "    // How far the hovered icon rises away from the screen edge, 0 to 1.",
    "    rise 0.25",
    "",
    "    // How much the hovered icon grows, 0 to 1.",
    "    magnify 0.5",
    "",
    "    // How strongly neighbors are pushed aside, 0 to 1.",
    "    spread 0.5",
    "",
    "    // Frame interval step, 0 to 4. The tick interval is 15 + fps * 15 ms.",
    "    fps 0",
    "\x7d",
    "",
    "// Dot under icons of apps with open windows.",
    "running-indicator \x7b",
    "    // off",
    "    color \"#ffffff\"",
    "",
    "    // 0 default, 1 dots, 2 dot, 3 dashes, 4 dash, 5 squares, 6 square, 7 segmented,",
    "    // 8 solid, 9 triangles, 10 triangle, 11 diamonds, 12 diamond, 13 binary.",
    "    style 0",
    "\x7d",
    "",
    "// Counter on icons of apps with pending notifications.",
    "notification-badge \x7b",
    "    // off",
    "    color \"#ff0000\"",
    "",
    "    // 0 default, 1 dot, 2 dash, 3 square, 4 triangle, 5 diamond.",
    "    style 0",
    "\x7d",
    "",
    "// Only show pinned apps in the dock.",
    "// favorites-only",
    "",
    "// Magnify icons even while auto-hide keeps the dock hidden.",
    "// peek-hidden-icons" ]

/-- The document, each line with its end. -/
def embedded : String := String.join (embeddedLines.map (· ++ "\n"))

/-- The settings that hold where the user has no document. -/
def ofEmbedded (library : Library := .builtIn) (css : Color.Css := .builtIn) :
    Except (Halt ParseError) (Settings Float) :=
  parse embedded library css

end FisheyeDock.Settings
