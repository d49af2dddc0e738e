import MiniLua.Text.Quoted

/-!
# Flags

Flags stand before the other arguments. A flag starts with one or two hyphens. A switch is on when
it is given, and may be given a truth value behind an equals sign; any other flag takes a value,
behind an equals sign or as the next argument. Two hyphens alone end the flags. A flag may have a
second, short name, but only one of the two may be used.

## Delivered

- `Flag`: the names and the kind of a flag.
- `FlagError`: why flags cannot be read.
- `FlagValues`, `readFlags`: the flags that are given, and the arguments after them.
- `twoForms?`: a flag that is given under both its names.
-/

set_option autoImplicit false

namespace MiniLua.CommandLine

/-- A flag. -/
structure Flag where
  name : String
  short : Option String := none
  isSwitch : Bool
  usage : String

/-- All names of a flag. -/
def Flag.names (f : Flag) : List String :=
  f.name :: f.short.toList

/-- Why flags cannot be read. -/
inductive FlagError where
  | undefined (name : String)
  | needsValue (name : String)
  | badForm (text : String)
  | badTruth (value name : String)
  | twoForms (second first : String)
deriving DecidableEq

/-- A flag error for people. -/
def FlagError.text : FlagError → String
  | .undefined name => "flag provided but not defined: -" ++ name
  | .needsValue name => "flag needs an argument: -" ++ name
  | .badForm text => "bad flag syntax: " ++ text
  | .badTruth value name =>
    "invalid boolean value " ++ Text.quoteText value ++ " for -" ++ name ++ ": parse error"
  | .twoForms second first => "Cannot use two forms of the same flag: " ++ second ++ " " ++ first

/-- The words for truth values. -/
def truth? (text : String) : Option Bool :=
  if text ∈ ["1", "t", "T", "TRUE", "true", "True"] then some true
  else if text ∈ ["0", "f", "F", "FALSE", "false", "False"] then some false
  else none

/-- Values by the names under which they were given, the last first. -/
abbrev FlagValues := List (String × String)

/-- An argument that is a flag. -/
inductive Argument where
  /-- Not a flag; the flags end before it. -/
  | plain
  /-- Two hyphens; the flags end behind it. -/
  | terminator
  | malformed
  | flag (name : String) (value : Option String)

/-- The name and the value of a flag without its hyphens. -/
def splitFlag (cs : List Char) : Argument :=
  match cs with
  | [] => .malformed
  | '-' :: _ => .malformed
  | '=' :: _ => .malformed
  | _ =>
    let name := cs.takeWhile (· ≠ '=')
    match cs.drop name.length with
    | [] => .flag (String.ofList name) none
    | _ :: value => .flag (String.ofList name) (some (String.ofList value))

/-- What an argument is. A hyphen alone is no flag. -/
def Argument.ofText (text : String) : Argument :=
  match text.toList with
  | ['-', '-'] => .terminator
  | '-' :: '-' :: rest => splitFlag rest
  | '-' :: c :: rest => splitFlag (c :: rest)
  | _ => .plain

/-- The value of a switch. -/
def switchValue? (value : Option String) : Option String :=
  match value with
  | none => some "true"
  | some v => (truth? v).map fun b => if b then "true" else "false"

/-- Read flags up to the first error, with the values read so far. -/
def readFlags (flags : List Flag) (values : FlagValues) :
    List String → FlagValues × Except FlagError (List String)
  | [] => (values, .ok [])
  | arg :: rest =>
    match Argument.ofText arg with
    | .plain => (values, .ok (arg :: rest))
    | .terminator => (values, .ok rest)
    | .malformed => (values, .error (.badForm arg))
    | .flag name value =>
      match flags.find? fun f => name ∈ f.names with
      | none => (values, .error (.undefined name))
      | some f =>
        if f.isSwitch then
          match switchValue? value with
          | some v => readFlags flags ((name, v) :: values) rest
          | none => (values, .error (.badTruth (value.getD "") name))
        else
          match value with
          | some v => readFlags flags ((name, v) :: values) rest
          | none =>
            match rest with
            | v :: rest => readFlags flags ((name, v) :: values) rest
            | [] => (values, .error (.needsValue name))

/-- The first flag that is given under both its names. -/
def twoForms? (flags : List Flag) (values : FlagValues) : Option FlagError :=
  flags.findSome? fun f =>
    match f.short with
    | none => none
    | some short =>
      if (values.lookup f.name).isSome && (values.lookup short).isSome then
        some (.twoForms short f.name)
      else none

/-- The value of a flag under either name. -/
def FlagValues.get? (values : FlagValues) (f : Flag) : Option String :=
  f.names.findSome? fun name => values.lookup name

/-- A switch is on. -/
def FlagValues.isOn (values : FlagValues) (f : Flag) : Bool :=
  values.get? f = some "true"

end MiniLua.CommandLine
