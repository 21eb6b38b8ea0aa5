import ScrapeDiscovery.Text.Search

/-!
# Colours on a terminal

A styled text is put between an escape sequence that turns the style on and one
that turns all styles off. Where the text itself turns styles off its own style
is turned on again. Without colours a text stays as it is.
-/

namespace ScrapeDiscovery.Client

/-- How a text is shown. -/
inductive Style where
  | bold
  | red
  | green
  | yellow
  | cyan
  /-- Bold and yellow. -/
  | warning
  deriving DecidableEq, Repr

namespace Style

/-- The parameters of a style's escape sequence. -/
def parameters : Style → String
  | bold => "1"
  | red => "31"
  | green => "32"
  | yellow => "33"
  | cyan => "36"
  | warning => "1;33"

/-- The escape sequence with parameters. -/
def sequence (parameters : String) : String := "\x1b[" ++ parameters ++ "m"

/-- The escape sequence that turns all styles off. -/
def off : String := sequence "0"

/-- Shows a text in a style if there are colours. -/
def paint (colored : Bool) (style : Style) (s : String) : String :=
  if colored then
    let on := sequence style.parameters
    on ++ Text.replaceText off (off ++ on) s ++ off
  else s

/-- The style of a status: green is well, yellow is less than that, red is ill. -/
def ofStatus? (status : String) : Option Style :=
  match String.ofList (status.toList.map Char.toLower) with
  | "healthy" | "leading" => some green
  | "degraded" | "following" => some yellow
  | "unhealthy" => some red
  | _ => none

/-- A status in its style (`color_status`). -/
def paintStatus (colored : Bool) (status : String) : String :=
  match ofStatus? status with
  | some style => paint colored style status
  | none => status

end Style

end ScrapeDiscovery.Client
