import Diagnostics.Severity
import Diagnostics.Terminal

/-!
# Rendering Options

The settings of a sink, and a scan that picks them out of raw command-line
arguments. The scan runs before any real argument parser, so it must not fail
and must not mind what it does not know: each argument either is one of five
exact words, and sets one setting, or does nothing. A later word overrides an
earlier one of the same setting.

## Main definitions

* `Options`: The settings of a sink.
* `colorFlag?`, `levelFlag?`: What an argument says about a setting.
* `Options.apply`: The effect of one argument.
* `Options.ofArgs`: The settings that a list of arguments asks for.
-/

namespace Diagnostics

/-- The settings of a sink. Left to itself a sink shows no snippets, has no limit and
    prints everything. -/
structure Options where
  /-- Whether the source line and its marker are shown. -/
  snippet : Bool := false
  /-- Stop printing after this many errors; zero for no limit. -/
  errorLimit : Nat := 0
  color : ColorMode := .auto
  /-- The level below which messages are not printed. -/
  level : Level := .none
deriving DecidableEq, Repr

/-- The colour mode that an argument asks for, if it is one of the two words. -/
def colorFlag? (arg : String) : Option ColorMode :=
  if arg = "--color=false" then some .never
  else if arg = "--color=true" then some .always
  else none

/-- The level that an argument asks for, if it is one of the three words. -/
def levelFlag? (arg : String) : Option Level :=
  if arg = "--log-level=info" then some .info
  else if arg = "--log-level=warning" then some .warning
  else if arg = "--log-level=error" then some .error
  else none

namespace Options

/-- Let one argument override what it speaks about. -/
def apply (options : Options) (arg : String) : Options :=
  { options with
    color := (colorFlag? arg).getD options.color
    level := (levelFlag? arg).getD options.level }

/-- The settings that a list of arguments asks for, the later words overriding the
    earlier. -/
def ofArgs (args : List String) : Options :=
  args.foldl apply {}

end Options

end Diagnostics
