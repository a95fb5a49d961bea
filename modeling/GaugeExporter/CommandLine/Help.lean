import GaugeExporter.CommandLine.Arguments

/-!
# Help texts

What the program prints about itself.
-/

namespace GaugeExporter.CommandLine

def versionText : String := "sensord 0.1.0\n"

def Topic.about : Topic → String
  | .run => "Collect on an interval and publish every document until Ctrl-C"
  | .collect => "Collect once and print the document to stdout"
  | .checkConfig => "Parse and validate a config file, including its producers"
  | .init => "Print a starter config"
  | .producers => "List the built-in producer kinds"

def aboutHelp : String := "Print this message or the help of the given subcommand(s)"

def filled (width : Nat) (text : String) : String :=
  text ++ String.ofList (List.replicate (width - text.length) ' ')

def commandLine (name about : String) : String := s!"  {filled 12 name}  {about}\n"

def programHelp : String :=
  "SensorGrid exporter daemon\n\nUsage: sensord <COMMAND>\n\nCommands:\n"
    ++ String.join (Topic.all.map fun topic => commandLine topic.name topic.about)
    ++ commandLine "help" aboutHelp
    ++ "\nOptions:\n  -h, --help     Print help\n  -V, --version  Print version\n"

def Topic.optionLines (topic : Topic) : String :=
  match topic with
  | .init =>
    "      --site <SITE>  Value for the `site` tag of the info metric [default: default]\n"
      ++ "  -h, --help         Print help\n"
  | .producers => "  -h, --help  Print help\n"
  | _ =>
    "  -c, --config <CONFIG>  Path to sensord.toml [default: /etc/sensord.toml]\n"
      ++ "  -h, --help             Print help\n"

def Topic.help (topic : Topic) : String :=
  let usage := if topic.option?.isSome then " [OPTIONS]" else ""
  s!"{topic.about}\n\nUsage: sensord {topic.name}{usage}\n\nOptions:\n{topic.optionLines}"

def helpOnHelpText : String :=
  s!"{aboutHelp}\n\nUsage: sensord help [COMMAND]...\n\nArguments:\n"
    ++ "  [COMMAND]...  Print help for the subcommand(s)\n"

end GaugeExporter.CommandLine
