set_option autoImplicit false

/-!
The options of the command line and the texts that explain them.
-/

namespace QueueMachine.CommandLine

inductive Flag where
  | help
  | execute
  | output
  | loadBytecode
  | dumpBytecode
  | trace
  | maxSteps
  | visualize
  deriving DecidableEq, Repr

inductive Valence where
  | none
  | required
  | optional
  deriving DecidableEq, Repr

namespace Flag

def all : List Flag :=
  [.help, .execute, .output, .loadBytecode, .dumpBytecode, .trace, .maxSteps, .visualize]

/-- The names of an option, the short one first if it has one. -/
def names : Flag → List String
  | .help => ["-h", "--help"]
  | .execute => ["-e", "--execute"]
  | .output => ["-o", "--output"]
  | .loadBytecode => ["--load-bytecode"]
  | .dumpBytecode => ["--dump-bytecode"]
  | .trace => ["--trace"]
  | .maxSteps => ["--max-steps"]
  | .visualize => ["--visualize"]

def valence : Flag → Valence
  | .help => .none
  | .execute => .required
  | .output => .required
  | .loadBytecode => .required
  | .dumpBytecode => .required
  | .trace => .none
  | .maxSteps => .required
  | .visualize => .optional

def table : List (String × Flag) :=
  all.flatMap fun flag => flag.names.map fun name => (name, flag)

def ofName? (name : String) : Option Flag :=
  table.lookup name

def title (flag : Flag) : String :=
  "/".intercalate flag.names

end Flag

def usage : String :=
  "usage: quack [-h] [-e INLINE] [-o OUTPUT_PATH] [--load-bytecode BYTECODE_PATH]\n"
    ++ "             [--dump-bytecode DUMP_PATH] [--trace] [--max-steps MAX_STEPS]\n"
    ++ "             [--visualize [\x7bgui,curses\x7d]]\n"
    ++ "             [script]\n"

def help : String :=
  usage
    ++ "\n"
    ++ "Run Quack programs on the queue VM\n"
    ++ "\n"
    ++ "positional arguments:\n"
    ++ "  script                Path to Quack program (reads stdin when omitted)\n"
    ++ "\n"
    ++ "options:\n"
    ++ "  -h, --help            show this help message and exit\n"
    ++ "  -e INLINE, --execute INLINE\n"
    ++ "                        Execute Quack code string\n"
    ++ "  -o OUTPUT_PATH, --output OUTPUT_PATH\n"
    ++ "                        Write program output to this file\n"
    ++ "  --load-bytecode BYTECODE_PATH\n"
    ++ "                        Run a bytecode listing instead of source\n"
    ++ "  --dump-bytecode DUMP_PATH\n"
    ++ "                        Write the compiled bytecode listing to this file\n"
    ++ "  --trace               Print an execution trace to stderr\n"
    ++ "  --max-steps MAX_STEPS\n"
    ++ "                        Stop after this many instructions\n"
    ++ "  --visualize [\x7bgui,curses\x7d]\n"
    ++ "                        Visualize VM execution (optional mode: gui or curses)\n"

end QueueMachine.CommandLine
