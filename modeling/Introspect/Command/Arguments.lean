/-!
Arguments of the command line. An option has a long name, and may have a letter; its value is the
next argument or follows an equals sign. Letters can be written together, and after `--` nothing is
an option.
-/
namespace Introspect.Command

/-- What the command line can ask for. -/
inductive Action where
  | run (query : String) (snapshot : Option String) (pretty syntaxOnly strict : Bool)
  | sources (snapshot : Option String)
  | docs
  | doc (category : String)
deriving DecidableEq

structure Invocation where
  config : Option String
  action : Action
deriving DecidableEq

inductive Setting where
  | logLevel
  | config
  | snapshot
  | pretty
  | syntaxOnly
  | strict
deriving DecidableEq

namespace Setting

def takesValue : Setting → Bool
  | logLevel | config | snapshot => true
  | pretty | syntaxOnly | strict => false

def ofLong? : String → Option Setting
  | "log-level" => some logLevel
  | "config" => some config
  | "snapshot" => some snapshot
  | "pretty" => some pretty
  | "syntax-only" => some syntaxOnly
  | "strict" => some strict
  | _ => none

def ofLetter? : Char → Option Setting
  | 'l' => some logLevel
  | 'c' => some config
  | 's' => some snapshot
  | 'p' => some pretty
  | _ => none

end Setting

/-- An argument by its role: a setting with its value, or a word. -/
inductive Argument where
  | setting (s : Setting) (value : String)
  | word (w : String)
deriving DecidableEq

namespace Argument

def word? : Argument → Option String
  | word w => some w
  | setting .. => none

def setting? : Argument → Option (Setting × String)
  | setting s value => some (s, value)
  | word _ => none

/-- The name of an option given in full, and the value after its equals sign. -/
def splitLong (cs : List Char) : String × Option String :=
  let name := String.ofList (cs.takeWhile (· != '='))
  match cs.dropWhile (· != '=') with
  | [] => (name, none)
  | _ :: value => (name, some (String.ofList value))

/-- Settings of letters written together. The first that takes a value takes the rest, and if
nothing is left it waits for the next argument. -/
def ofLetters? : List Char → Option (List Argument × Option Setting)
  | [] => some ([], none)
  | c :: rest => do
    let s ← Setting.ofLetter? c
    if s.takesValue then
      match rest with
      | [] => return ([], some s)
      | '=' :: value => return ([setting s (String.ofList value)], none)
      | value => return ([setting s (String.ofList value)], none)
    else
      let (arguments, waiting) ← ofLetters? rest
      return (setting s "" :: arguments, waiting)

/-- The roles of arguments. `waiting` is a setting whose value comes next. -/
def ofTexts? (waiting : Option Setting) : List String → Option (List Argument)
  | [] => if waiting.isSome then none else some []
  | text :: rest =>
    match waiting, text.toList with
    | some _, '-' :: _ :: _ => none
    | some s, _ => (ofTexts? none rest).map (setting s text :: ·)
    | none, ['-', '-'] => some (rest.map word)
    | none, '-' :: '-' :: cs => do
      let (name, value) := splitLong cs
      let s ← Setting.ofLong? name
      match s.takesValue, value with
      | true, some value => (ofTexts? none rest).map (setting s value :: ·)
      | true, none => ofTexts? (some s) rest
      | false, none => (ofTexts? none rest).map (setting s "" :: ·)
      | false, some _ => none
    | none, '-' :: c :: cs => do
      let (arguments, waiting) ← ofLetters? (c :: cs)
      return arguments ++ (← ofTexts? waiting rest)
    | none, _ => (ofTexts? none rest).map (word text :: ·)

end Argument

/-- Settings that go with every action. They may come before it. -/
def Setting.shared : List Setting :=
  [.logLevel, .config]

/-- The settings that go with an action. -/
def Setting.ofAction : String → List Setting
  | "run" => shared ++ [.snapshot, .pretty, .syntaxOnly, .strict]
  | "sources" => shared ++ [.snapshot]
  | _ => shared

/-- Whether settings are among those in `allowed`, each given once. -/
def admits (allowed : List Setting) (settings : List (Setting × String)) : Bool :=
  let given := settings.map (·.1)
  given.all allowed.contains && given.eraseDups.length == given.length

/-- Reads the arguments of a call, unless they ask for nothing that there is. A setting after the
action counts before one in front of it. -/
def Invocation.ofArguments? (texts : List String) : Option Invocation := do
  let arguments ← Argument.ofTexts? none texts
  let action ← (arguments.filterMap Argument.word?).head?
  let before := (arguments.takeWhile (·.word?.isNone)).filterMap Argument.setting?
  let after := (arguments.dropWhile (·.word?.isNone)).filterMap Argument.setting?
  if !admits Setting.shared before || !admits (Setting.ofAction action) after then none
  else
    let value? (s : Setting) : Option String := (after ++ before).lookup s
    let call (action : Action) : Option Invocation := some ⟨value? .config, action⟩
    match arguments.filterMap Argument.word? with
    | ["run", query] =>
      call (.run query (value? .snapshot) (value? .pretty).isSome (value? .syntaxOnly).isSome
        (value? .strict).isSome)
    | ["sources"] => call (.sources (value? .snapshot))
    | ["docs"] => call .docs
    | ["doc", category] => call (.doc category)
    | _ => none

end Introspect.Command
