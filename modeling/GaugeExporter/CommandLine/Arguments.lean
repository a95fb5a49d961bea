/-!
# Command line arguments

Arguments are read from left to right. The first that asks for help or for the
version decides, and so does the first that is wrong. A value follows its option
as an argument of its own, which must not look like an option, or behind an
equals sign; a short option takes it without either, too.
-/

namespace GaugeExporter.CommandLine

inductive Topic where
  | run
  | collect
  | checkConfig
  | init
  | producers
  deriving DecidableEq, Repr

inductive Command where
  | run (config : String)
  | collect (config : String)
  | checkConfig (config : String)
  | init (site : String)
  | producers
  deriving DecidableEq, Repr

inductive Invocation where
  | command (command : Command)
  -- Help on a command, or on the program.
  | help (topic : Option Topic)
  -- Help on help.
  | helpOnHelp
  | version
  -- The arguments make no sense.
  | misuse
  deriving DecidableEq, Repr

namespace Topic

def all : List Topic := [.run, .collect, .checkConfig, .init, .producers]

def name : Topic → String
  | .run => "run"
  | .collect => "collect"
  | .checkConfig => "check-config"
  | .init => "init"
  | .producers => "producers"

def find? (name : String) : Option Topic := all.find? (·.name == name)

end Topic

/-! ## Options -/

/-- The option that takes a value. -/
structure Valued where
  short : Option Char
  long : String
  -- What the value is without the option.
  absent : String
  -- The value may be empty.
  mayBeEmpty : Bool

def configOption : Valued := ⟨some 'c', "config", "/etc/sensord.toml", false⟩

/-- The option for the site of a configuration to start from. -/
def siteOption : Valued := ⟨none, "site", "default", true⟩

def Topic.option? : Topic → Option Valued
  | .run | .collect | .checkConfig => some configOption
  | .init => some siteOption
  | .producers => none

def Topic.command (value : String) : Topic → Command
  | .run => .run value
  | .collect => .collect value
  | .checkConfig => .checkConfig value
  | .init => .init value
  | .producers => .producers

inductive Argument where
  | help
  -- The option with a value behind an equals sign or the short name.
  | attached (value : List Char)
  -- The option, whose value is the next argument.
  | detached
  -- No argument after this one is an option.
  | separator
  | unknown
  deriving DecidableEq, Repr

def attachedShort : List Char → Argument
  | [] => .detached
  | '=' :: value => .attached value
  | value => .attached value

def longArgument (option : Option Valued) (text : List Char) : Argument :=
  let name := String.ofList (text.takeWhile (· != '='))
  match option.filter (·.long == name), text.dropWhile (· != '=') with
  | some _, [] => .detached
  | some _, _ :: value => .attached value
  | none, [] => if name == "help" then .help else .unknown
  | none, _ => .unknown

def recognize (option : Option Valued) (argument : String) : Argument :=
  match argument.toList with
  | ['-', '-'] => .separator
  | '-' :: '-' :: text => longArgument option text
  | '-' :: 'h' :: _ => .help
  | '-' :: c :: rest =>
    if (option.bind (·.short)) = some c then attachedShort rest else .unknown
  | _ => .unknown

def isValue (argument : String) : Bool :=
  match argument.toList with
  | '-' :: _ :: _ => false
  | _ => true

def Valued.admits (option : Valued) (value : String) : Bool :=
  option.mayBeEmpty || !value.isEmpty

/-- Reads the arguments of a command behind a value that has been given, if
one has. -/
def optionsFrom (topic : Topic) (option : Valued) : Option String → List String → Invocation
  | given, [] => .command (topic.command (given.getD option.absent))
  | given, argument :: rest =>
    match recognize (some option) argument with
    | .help => .help (some topic)
    | .separator =>
      if rest.isEmpty then .command (topic.command (given.getD option.absent)) else .misuse
    | .unknown => .misuse
    | .attached value =>
      let value := String.ofList value
      if given.isSome || !option.admits value then .misuse
      else optionsFrom topic option (some value) rest
    | .detached =>
      -- The next argument is the value, unless it looks like an option.
      match rest with
      | [] => .misuse
      | value :: later =>
        if given.isSome || !isValue value || !option.admits value then .misuse
        else optionsFrom topic option (some value) later

def noOptions (topic : Topic) : List String → Invocation
  | [] => .command (topic.command "")
  | argument :: rest =>
    match recognize none argument with
    | .help => .help (some topic)
    | .separator => if rest.isEmpty then .command (topic.command "") else .misuse
    | _ => .misuse

/-! ## Arguments of the program -/

def helpOn : List String → Invocation
  | [] => .help none
  | [name] =>
    match Topic.find? name with
    | some topic => .help (some topic)
    | none => if name == "help" then .helpOnHelp else .misuse
  | _ => .misuse

def Invocation.ofArguments : List String → Invocation
  | [] => .misuse
  | argument :: rest =>
    match Topic.find? argument with
    | some topic =>
      match topic.option? with
      | some option => optionsFrom topic option none rest
      | none => noOptions topic rest
    | none =>
      if argument == "help" then helpOn rest
      else if argument == "--version" || argument.startsWith "-V" then .version
      else if recognize none argument == .help then .help none
      else .misuse

end GaugeExporter.CommandLine
