import Fanout.Fault.Basic
import Fanout.Settings

/-!
# Arguments

The arguments of the program are flags up to the first that does not begin with a dash; that one
and all behind it are the template. `readArguments` says what a run is asked to do.
-/

namespace Fanout

/-- What a run is asked to do. -/
inductive Invocation where
  | help
  | version
  | run (settings : Settings) (tokens : List Text)
  deriving DecidableEq, Repr

/-- The version of the program. -/
def versionText : Text := "0.1.0".toList

/-- The help text of the program. -/
def usageText : Text :=
  ("Usage: lup [OPTION] COMMANDLINE\n" ++
    "\n" ++
    "Run multiple similar commands expanding at-symbol encapsulated, comma-separated\n" ++
    "lists similarly to nested for loops.\n" ++
    "\n" ++
    "e.g:\n" ++
    "\n" ++
    "  lup @rm,nano@ foo_@1,2@\n" ++
    "\n" ++
    "Expands to and executes:\n" ++
    "\n" ++
    "  rm foo_1\n" ++
    "  rm foo_2\n" ++
    "  nano foo_1\n" ++
    "  nano foo_2\n" ++
    "\n" ++
    "Literal @ symbols, and literal commas inside a group, are escaped with a\n" ++
    "backslash.\n" ++
    "\n" ++
    "Iterating     @9..0@ counts down, @0..9@ counts up\n" ++
    "Hiding        @-:1..5@ iterates without printing its value\n" ++
    "Backrefs      @1@ repeats the value group 1 holds on the same line\n" ++
    "Reading files @lines:/path/to/file@ injects one line per command\n" ++
    "Filesystem    @files:dir/*@, @dirs:dir/*@ and @all:dir/*@ iterate nodes;\n" ++
    "              a path right before the group (dir/@files:*@) is inherited\n" ++
    "\n" ++
    "Options:\n" ++
    "\n" ++
    "  -h, --help     Show this help message and exit\n" ++
    "  -V, --version  Show version information and exit\n" ++
    "  -t, --test     Show commands, but do not execute them\n" ++
    "\n" ++
    "Environment:\n" ++
    "\n" ++
    "  LUP_LOG        Log filter (default: warn)\n" ++
    "  LUP_SHELL      Shell used to pipe captured stdin (default: $SHELL or sh)\n" ++
    "  LUP_DELIMITER  Group delimiter character (default: @)").toList

/-- The argument is a flag as long as no template has begun. -/
def isFlag : Text → Bool
  | c :: _ => c = '-'
  | [] => false

/-- What the arguments ask for. -/
def readArguments (settings : Settings) : List Text → Except Fault Invocation
  | [] => .ok .help
  | arg :: rest =>
    if !isFlag arg then .ok (.run settings (arg :: rest))
    else if arg = "-V".toList || arg = "--version".toList then .ok .version
    else if arg = "-h".toList || arg = "--help".toList then .ok .help
    else if arg = "-t".toList || arg = "--test".toList then
      readArguments { settings with dryRun := true } rest
    else .error (.unknownFlag arg)

end Fanout
