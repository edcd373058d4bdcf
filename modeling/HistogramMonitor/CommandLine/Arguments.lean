import HistogramMonitor.Text.Numeral

/-!
# Arguments

What the user asks for. The path of the configuration comes first, if it is given at all, then a task with
its own arguments. An option takes a value, either attached to it or as the next argument, and may be given
once; after two dashes nothing is an option any more.
-/

namespace HistogramMonitor.CommandLine

/-- What is to be done. -/
inductive Task
  /-- write a configuration to start from -/
  | new
  /-- record the demonstration replies -/
  | fixture
  /-- list the histograms -/
  | list
  /-- summarize one histogram -/
  | show (name : String)
  /-- clear histograms -/
  | clear (selector : String)
  /-- watch the configured plots for a number of cycles, or without end if it is zero -/
  | watch (cycles : Nat)
  deriving DecidableEq, Repr

/-- What is to be done, and with which configuration. -/
structure Invocation where
  path : String := "config.yml"
  task : Option Task := none
  deriving DecidableEq, Repr

/-- Why nothing is to be done. -/
inductive Refusal
  /-- the user asked how to use the program -/
  | help
  /-- the arguments make no sense -/
  | usage (reason : String)
  deriving DecidableEq, Repr

/-! ## One layer of arguments -/

/-- An option with a value. -/
structure Flag where
  letter : Char
  name : String
  /-- whether a value makes sense -/
  accepts : String → Bool := fun _ => true

/-- The arguments of one layer. -/
structure Layer where
  flag : Option Flag := none
  /-- whether the first word begins the arguments of a layer below -/
  nested : Bool := false
  /-- the most words -/
  words : Nat := 0

/-- What an argument is. -/
inductive Shape
  | word
  /-- the end of the options -/
  | divider
  | help
  /-- the option of the layer, with its value if that is attached -/
  | flag (f : Flag) (value : Option String)
  | unknown
  deriving Inhabited

/-- Whether an argument looks like an option: a lone dash does not. -/
def dashed (arg : String) : Bool :=
  match arg.toList with
  | '-' :: _ :: _ => true
  | _ => false

/-- The value after the name of an option: what stands after an equals sign. -/
def attached? : List Char → Option String
  | '=' :: value => some (String.ofList value)
  | _ => none

/-- What an argument is on a layer. -/
def Layer.shape (l : Layer) (arg : String) : Shape :=
  match arg.toList with
  | ['-', '-'] => .divider
  | '-' :: '-' :: long =>
    if long = "help".toList then .help
    else match l.flag with
      | none => .unknown
      | some f =>
        let name := f.name.toList
        let rest := long.drop name.length
        if long.take name.length = name ∧ (rest.isEmpty ∨ (attached? rest).isSome) then
          .flag f (attached? rest)
        else .unknown
  | '-' :: letter :: rest =>
    if letter = 'h' then .help
    else match l.flag with
      | none => .unknown
      | some f =>
        if letter = f.letter then
          .flag f (if rest.isEmpty then none else attached? rest <|> some (String.ofList rest))
        else .unknown
  | _ => .word

/-- What has been found on a layer. -/
structure Found where
  value : Option String := none
  words : List String := []
  /-- the word that begins a layer below, and the arguments after it -/
  below : Option (String × List String) := none
  deriving Repr

namespace Found

/-- With the value of the option, which may be given once. -/
def withValue (found : Found) (f : Flag) (value : String) : Except Refusal Found :=
  if found.value.isSome then .error (.usage s!"--{f.name} cannot be used multiple times")
  else if f.accepts value then .ok { found with value := some value }
  else .error (.usage s!"invalid value '{value}' for --{f.name}")

/-- With one more word, if the layer takes it. -/
def withWord (found : Found) (l : Layer) (word : String) : Except Refusal Found :=
  if found.words.length < l.words then .ok { found with words := found.words ++ [word] }
  else .error (.usage s!"unexpected argument '{word}'")

end Found

/-- Goes through the arguments of a layer. -/
def Layer.scan (l : Layer) : Found → List String → Except Refusal Found
  | found, [] => .ok found
  | found, arg :: args =>
    match l.shape arg with
    | .help => .error .help
    | .unknown => .error (.usage s!"unexpected argument '{arg}'")
    | .divider => args.foldlM (fun found word => found.withWord l word) found
    | .word =>
      if l.nested then .ok { found with below := some (arg, args) }
      else do
        let found ← found.withWord l arg
        l.scan found args
    | .flag f (some value) => do
      let found ← found.withValue f value
      l.scan found args
    | .flag f none =>
      match args with
      | [] => .error (.usage s!"a value is required for --{f.name}")
      | value :: args =>
        if dashed value then .error (.usage s!"a value is required for --{f.name}")
        else do
          let found ← found.withValue f value
          l.scan found args

/-! ## All arguments -/

/-- A natural number of 64 bits, with or without a plus sign. -/
def count? (s : String) : Option Nat :=
  let digits := match s.toList with
    | '+' :: ds => ds
    | ds => ds
  (Text.numeral? 10 digits).filter (· < 0x10000000000000000)

/-- The arguments before the task. -/
def outer : Layer := { flag := some { letter := 'p', name := "path" }, nested := true }

/-- The arguments of watching. -/
def watching : Layer :=
  { flag := some { letter := 'c', name := "cycles", accepts := fun v => (count? v).isSome } }

/-- The names of all tasks. -/
def taskNames : List String := ["new", "fixture", "list", "show", "clear", "watch"]

/-- A task from its name and its arguments. -/
def task (name : String) (args : List String) : Except Refusal Task :=
  match name with
  | "new" => do
    let _ ← Layer.scan {} {} args
    return .new
  | "fixture" => do
    let _ ← Layer.scan {} {} args
    return .fixture
  | "list" => do
    let _ ← Layer.scan {} {} args
    return .list
  | "show" => do
    let found ← Layer.scan { words := 1 } {} args
    match found.words with
    | [] => .error (.usage "show requires a histogram name")
    | name :: _ => return .show name
  | "clear" => do
    let found ← Layer.scan { words := 1 } {} args
    return .clear (found.words.head?.getD "")
  | "watch" => do
    let found ← watching.scan {} args
    return .watch ((found.value.bind count?).getD 0)
  | "help" =>
    match args with
    | [] => .error .help
    | [name] =>
      if name = "help" ∨ name ∈ taskNames then .error .help
      else .error (.usage s!"unrecognized task '{name}'")
    | _ => .error (.usage "unexpected arguments after help")
  | _ => .error (.usage s!"unrecognized task '{name}'")

/-- The meaning of all arguments. Without any there is nothing to do. -/
def parse (args : List String) : Except Refusal Invocation := do
  let found ← outer.scan {} args
  let path := found.value.getD "config.yml"
  match found.below with
  | some (name, args) => return { path := path, task := some (← task name args) }
  | none =>
    if found.value.isSome then return { path := path }
    else throw (.usage "a task is required")

/-! ## Help -/

/-- How to use the program. -/
def helpText : String := "\n".intercalate
  ["Usage: histogram_monitor [OPTIONS] [TASK]",
   "",
   "Tasks:",
   "  new               Make a template configuration yaml file",
   "  fixture           Record demo histogram replies into the replay path",
   "  list              List the histograms the backend knows about",
   "  show <name>       Retrieve a single histogram and summarize it",
   "  clear [selector]  Clear histogram content in the backend: a collection or collection/name;",
   "                    empty clears everything",
   "  watch             Keep the configured plots updated",
   "    -c, --cycles <cycles>  Stop after this many update cycles, 0 runs forever",
   "  help              Print this message",
   "",
   "Options:",
   "  -p, --path <path>  Path to the configuration file [default: config.yml]",
   "  -h, --help         Print help"]

end HistogramMonitor.CommandLine
