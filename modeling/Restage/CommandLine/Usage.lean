import Restage.Text.Basic

/-!
# Usage

The texts that explain the command line.
-/

namespace Restage.CommandLine

def unlines (lines : List Text) : Text := lines.flatMap fun l => l ++ ['\n']

/-- What a text is about: the program or its one command. -/
inductive Topic where
  | program
  | convert
  deriving DecidableEq, Repr

namespace Topic

/-- How a topic is called. -/
def name : Topic → Text
  | program => "pomshift"
  | convert => "pomshift convert"

/-- How a topic is used. -/
def usage : Topic → Text
  | program => unlines ["usage: pomshift [-h] [--version] \x7bconvert\x7d ..."]
  | convert => unlines
    ["usage: pomshift convert [-h] [--diagnostics] [--no-project-context]",
     "                        [--log-format \x7bjson,console\x7d] [--log-level LOG_LEVEL]",
     "                        [--json]",
     "                        [input] [output]"]

/-- What a topic is about, its arguments and its options. -/
def details : Topic → Text
  | program => unlines
    ["",
     "Convert QAF/Selenium Java test code to Playwright TypeScript",
     "",
     "positional arguments:",
     "  \x7bconvert\x7d",
     "    convert   Convert a file or directory",
     "",
     "options:",
     "  -h, --help  show this help message and exit",
     "  --version   show program's version number and exit"]
  | convert => unlines
    ["",
     "positional arguments:",
     "  input                 Java file or directory to convert",
     "  output                Output directory",
     "",
     "options:",
     "  -h, --help            show this help message and exit",
     "  --diagnostics         Write <stem>.source.txt and <stem>.skipped.txt next to",
     "                        each output",
     "  --no-project-context  Convert each file on its own, without the cross-file",
     "                        analysis pass",
     "  --log-format \x7bjson,console\x7d",
     "                        Log renderer",
     "  --log-level LOG_LEVEL",
     "                        Log level (DEBUG, INFO, WARNING, ...)",
     "  --json                Print the batch summary as JSON"]

def help (t : Topic) : Text := t.usage ++ t.details

/-- The message about a wrong use. -/
def misuse (t : Topic) (message : Text) : Text :=
  t.usage ++ t.name ++ ": error: " ++ message ++ "\n"

end Topic

def version : Text := "pomshift 0.1.0\n"

end Restage.CommandLine
