import BindOnce.Setting

/-!
# Configuration

How programs are run is read from two variables of the surroundings, one for the mode and one for
the language of diagnostics.  A variable that is not set leaves the default; one that is set to
something unknown is an error, and the mode is looked at first.
-/

set_option autoImplicit false
namespace BindOnce

/-- How programs are run. -/
structure Config where
  mode : Mode := .interpret
  lang : Lang := .waray
  deriving DecidableEq, Repr, Inhabited

/-- What can be wrong with the variables. -/
inductive ConfigError where
  | mode (e : UnknownMode)
  | lang (e : UnknownLang)
  deriving DecidableEq, Repr

namespace Config

/-- The variable that sets the mode. -/
def modeVariable : String := "WARAY_MODE"

/-- The variable that sets the language of diagnostics. -/
def langVariable : String := "WARAY_LANG"

/-- Read the configuration; `lookup` gives the text of a variable that is set. -/
def ofLookup (lookup : String → Option String) : Except ConfigError Config := do
  let mode ← match lookup modeVariable with
    | none => pure .interpret
    | some text => (Mode.parse text).mapError .mode
  let lang ← match lookup langVariable with
    | none => pure .waray
    | some text => (Lang.parse text).mapError .lang
  return ⟨mode, lang⟩

end Config

/-- What a developer reads about a wrong variable. -/
def ConfigError.message : ConfigError → String
  | .mode e => s!"invalid {Config.modeVariable}: {e.message}"
  | .lang e => s!"invalid {Config.langVariable}: {e.message}"

end BindOnce
