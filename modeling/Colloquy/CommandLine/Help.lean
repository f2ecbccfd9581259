/-!
What the program says about itself.
-/

set_option autoImplicit false

namespace Colloquy.CommandLine

def programName : String := "script-session"

def versionNumber : String := "0.1.0"

def versionText : String :=
  programName ++ " " ++ versionNumber ++ "\n"

def helpLines : List String := [
    programName ++ " " ++ versionNumber,
    "Incremental script runner with resumable sessions",
    "",
    "USAGE:",
    "    script-session [OPTIONS] [SCRIPT...] [-- ARGS...]",
    "",
    "Scripts run in order and always share one session, so later scripts see",
    "the variables of earlier ones. The session key is --session, or a generated",
    "one when no key is configured. Without scripts an interactive prompt reads",
    "submissions from stdin.",
    "",
    "OPTIONS:",
    "    -d, --debug             Write debug artifacts to <script dir>/bin",
    "    -s, --session <KEY>     Session key to run under",
    "    -c, --config <FILE>     Path to configuration file (JSON)",
    "    -l, --log-level <LVL>   Log level (error, warn, info, debug, trace)",
    "    -h, --help              Print help",
    "    -V, --version           Print version",
    "",
    "PROMPT COMMANDS:",
    "    :vars                   List the variables of the current session",
    "    :quit                   Exit",
    "",
    "ENVIRONMENT VARIABLES:",
    "    SCRIPT_SESSION_KEY        Session key (overrides config)",
    "    SCRIPT_SESSION_LOG_LEVEL  Log level (overrides config)",
    "    RUST_LOG                  Alternative log level setting",
    "",
    "EXAMPLES:",
    "    # Run one script",
    "    script-session hello.csx",
    "",
    "    # Run two scripts in one session and pass them arguments",
    "    script-session -s work setup.csx main.csx -- input.txt 42",
    "",
    "    # Emit debug artifacts",
    "    script-session --debug main.csx",
    ""]

def helpText : String :=
  String.join (helpLines.map (· ++ "\n"))

end Colloquy.CommandLine
