import Interpose.Config.Document
import Interpose.Text.Switch

/-!
# Configuration

How the hooks behave is chosen when the hook layer is loaded: by a document, and then by variables of the environment,
which override it one by one. What a document leaves out keeps its default.

Main definitions: `Config.ofDocument?` reads a document and refuses one with an unknown or repeated key or a value of
the wrong kind; `Config.override` applies the environment and says which of its values it ignored.
-/

namespace Interpose

/-- How the hooks behave. -/
structure Config where
  /-- Answer length queries about pooled strings from the pool. -/
  lengthHook : Bool
  /-- Also take the cell behind a valid address for a pooled address. -/
  refArgs : Bool
  /-- The filter of the built-in log, if it is switched on. -/
  trace : Option String
deriving DecidableEq

namespace Config

/-- The behaviour where nothing is chosen: lengths are answered from the pool, references are not followed, and there
is no log. -/
def standard : Config where
  lengthHook := true
  refArgs := false
  trace := none

/-- The filter of a log that is switched on without one. -/
def standardTrace : String :=
  "vmhook::hooks=info,vmhook::dispatch=info,vmhook::strings=info,vmhook::natives=warn,vmhook::tasks=info"

/-! ## Documents -/

/-- The settings a document can make. -/
inductive Setting
  | lengthHook
  | refArgs
  | trace
deriving DecidableEq

/-- The key of a setting. -/
def Setting.key : Setting → String
  | lengthHook => "hook_str_len"
  | refArgs => "hook_ref_args"
  | trace => "trace"

/-- The setting with a key. -/
def Setting.ofKey? (key : List Char) : Option Setting :=
  [lengthHook, refArgs, trace].find? fun s => s.key.toList == key

/-- Makes one setting, if the value is of its kind. -/
def set? (config : Config) : Setting → Document.Value → Option Config
  | .lengthHook, .bool b => some { config with lengthHook := b }
  | .refArgs, .bool b => some { config with refArgs := b }
  | .trace, .text cs => some { config with trace := some (String.ofList cs) }
  | _, _ => none

/-- Makes the settings of a document in turn; `made` are those made before. -/
def setAll? (config : Config) (made : List Setting) : List (List Char × Document.Value) → Option Config
  | [] => some config
  | (key, value) :: rest => do
    let setting ← Setting.ofKey? key
    if setting ∈ made then none
    else setAll? (← config.set? setting value) (setting :: made) rest

/-- The configuration of a document; none if it is no document, or sets an unknown key, a key twice, or a key to a
value of the wrong kind. -/
def ofDocument? (document : String) : Option Config :=
  (Document.settings? document).bind (setAll? standard [])

/-! ## Files -/

/-- Why a configuration file gives no configuration. -/
inductive FileError
  /-- There is no such file, or it does not hold text. -/
  | reading
  /-- The text is no configuration. -/
  | loading
deriving DecidableEq

/-- The word a failure is reported with. -/
def FileError.word : FileError → String
  | reading => "reading"
  | loading => "loading"

/-- The configuration in a file with these bytes, where `none` is a file that does not exist. -/
def ofFile (content : Option ByteArray) : Except FileError Config :=
  match content.bind String.fromUTF8? with
  | none => .error .reading
  | some document =>
    match ofDocument? document with
    | none => .error .loading
    | some config => .ok config

/-! ## Environment -/

/-- The variable that overrides `lengthHook`. -/
def lengthHookVariable : String := "VMHOOK_STR_LEN"

/-- The variable that overrides `refArgs`. -/
def refArgsVariable : String := "VMHOOK_REF_ARGS"

/-- The variable that overrides `trace`: a switch, or a filter. -/
def traceVariable : String := "VMHOOK_TRACE"

/-- A variable whose value was ignored because it is no switch. -/
structure Ignored where
  name : String
  value : String
deriving DecidableEq

/-- A flag after an override by `value`, if there is one. A value that is no switch leaves the flag alone. -/
def overrideFlag (flag : Bool) (name : String) : Option String → Bool × List Ignored
  | none => (flag, [])
  | some value =>
    match Text.switch? value.toList with
    | some on => (on, [])
    | none => (flag, [⟨name, value⟩])

/-- The log after an override by `value`, if there is one. Switching it on keeps a filter that is set. -/
def overrideTrace (trace : Option String) : Option String → Option String
  | none => trace
  | some value =>
    match Text.switch? value.toList with
    | some true => trace <|> some standardTrace
    | some false => none
    | none => some (String.ofList (Text.trimBlanks value.toList))

/-- The configuration under an environment, and the values that were ignored, in the order they were looked at. -/
def override (config : Config) (environment : String → Option String) : Config × List Ignored :=
  let (lengthHook, first) := overrideFlag config.lengthHook lengthHookVariable (environment lengthHookVariable)
  let (refArgs, second) := overrideFlag config.refArgs refArgsVariable (environment refArgsVariable)
  let trace := overrideTrace config.trace (environment traceVariable)
  ({ lengthHook, refArgs, trace }, first ++ second)

end Config

end Interpose
