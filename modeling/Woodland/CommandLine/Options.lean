import Woodland.Decimal.Numeral
import Woodland.Json.Number
import Woodland.Tree.Parameter

/-! Options of the command line: a flag that asks for help, and flags that are each followed by a value. -/

namespace Woodland.CommandLine

inductive Key where
  | config
  | writeConfig
  | seed
  | count
  | iterations
  | param
deriving DecidableEq

inductive Flag where
  | help
  | valued (k : Key)
deriving DecidableEq

def Flag.ofName? : String → Option Flag
  | "-h" | "--help" => some help
  | "-c" | "--config" => some (valued .config)
  | "-w" | "--write-config" => some (valued .writeConfig)
  | "--seed" => some (valued .seed)
  | "-n" | "--count" => some (valued .count)
  | "-i" | "--iterations" => some (valued .iterations)
  | "-p" | "--param" => some (valued .param)
  | _ => none

structure Options where
  config : Option String := none
  writeConfig : Option String := none
  seed : Option UInt64 := none
  count : Option Nat := none
  iterations : Option Nat := none
  params : List (String × Float) := []

inductive UsageFault where
  | missingValue (flag : String)
  | seed (text : String)
  | count (text : String)
  | iterations (text : String)
  | notAPair (text : String)
  | paramValue (name text : String)
  | unknownOption (text : String)

def UsageFault.message : UsageFault → String
  | missingValue flag => s!"Missing value for {flag}"
  | seed text => s!"Invalid seed: {text}"
  | count text => s!"Invalid count: {text}"
  | iterations text => s!"Invalid iterations: {text}"
  | notAPair text => s!"Expected NAME=VALUE, got: {text}"
  | paramValue name text => s!"Invalid value for {name}: {text}"
  | unknownOption text => s!"Unknown option: {text}"

def param (text : String) : Except UsageFault (String × Float) :=
  match text.toList.span (· ≠ '=') with
  | (_, []) => .error (.notAPair text)
  | (name, _ :: number) =>
    match Decimal.double? number with
    | some x => .ok (String.ofList name, x)
    | none => .error (.paramValue (String.ofList name) (String.ofList number))

def Options.give (o : Options) (k : Key) (text : String) : Except UsageFault Options :=
  match k with
  | .config => .ok { o with config := some text }
  | .writeConfig => .ok { o with writeConfig := some text }
  | .seed =>
    match Decimal.natural? Json.wordBound text.toList with
    | some n => .ok { o with seed := some n.toUInt64 }
    | none => .error (.seed text)
  | .count =>
    match Decimal.natural? Json.wordBound text.toList with
    | some n => .ok { o with count := some n }
    | none => .error (.count text)
  | .iterations =>
    match Decimal.natural? Shape.iterationBound text.toList with
    | some n => .ok { o with iterations := some n }
    | none => .error (.iterations text)
  | .param => do return { o with params := o.params ++ [← CommandLine.param text] }

inductive Request where
  | help
  | run (o : Options)

def Options.read (o : Options) : List String → Except UsageFault Request
  | [] => .ok (.run o)
  | [name] =>
    match Flag.ofName? name with
    | none => .error (.unknownOption name)
    | some .help => .ok .help
    | some (.valued _) => .error (.missingValue name)
  | name :: text :: rest =>
    match Flag.ofName? name with
    | none => .error (.unknownOption name)
    | some .help => .ok .help
    | some (.valued k) => do (← o.give k text).read rest

def Request.ofArguments (arguments : List String) : Except UsageFault Request :=
  Options.read {} arguments

end Woodland.CommandLine
