import GoDecl.Repl

/-! The command line: options, and what a whole run of the program prints. -/
namespace GoDecl.CommandLine

/-- Options as given; none is given twice except `-v`. -/
structure Options where
  codePoints : Bool := false
  maxDepth : Option Nat := none
  noZeroValues : Bool := false
  source : Option String := none
  verbosity : Nat := 0
  deriving DecidableEq, Repr

inductive Request where
  | run (options : Options)
  | version
  | help
  | invalid
  deriving DecidableEq, Repr

inductive Flag where
  | codePoints | noZeroValues | verbose | version | help
  deriving DecidableEq, Repr

inductive Setting where
  | maxDepth | source
  deriving DecidableEq, Repr

inductive Name where
  | flag (f : Flag)
  | setting (s : Setting)
  deriving DecidableEq, Repr

def longName? (text : List Char) : Option Name :=
  match String.ofList text with
  | "code-points" => some (.flag .codePoints)
  | "no-zero-values" => some (.flag .noZeroValues)
  | "verbose" => some (.flag .verbose)
  | "version" => some (.flag .version)
  | "help" => some (.flag .help)
  | "max-depth" => some (.setting .maxDepth)
  | "eval" => some (.setting .source)
  | _ => none

def shortName? : Char → Option Name
  | 'v' => some (.flag .verbose)
  | 'V' => some (.flag .version)
  | 'h' => some (.flag .help)
  | 'e' => some (.setting .source)
  | _ => none

/-- A number of nesting levels: decimal digits with an optional plus sign, below 2⁶⁴. -/
def depth? (text : List Char) : Option Nat :=
  let digits := match text with
    | '+' :: rest => rest
    | same => same
  if digits.isEmpty || !digits.all Text.isDigit then none
  else
    let n := Decimal.ofDigits digits
    if n < Nat.pow 2 64 then some n else none

/-- Sets a flag that may be given once. Asking for the version or for help settles the request. -/
def Options.setFlag (o : Options) : Flag → Except Request Options
  | .codePoints => if o.codePoints then .error .invalid else .ok { o with codePoints := true }
  | .noZeroValues => if o.noZeroValues then .error .invalid else .ok { o with noZeroValues := true }
  | .verbose => .ok { o with verbosity := o.verbosity + 1 }
  | .version => .error .version
  | .help => .error .help

def Options.setValue (o : Options) (value : List Char) : Setting → Except Request Options
  | .maxDepth =>
    match o.maxDepth, depth? value with
    | none, some n => .ok { o with maxDepth := some n }
    | _, _ => .error .invalid
  | .source =>
    if o.source.isSome then .error .invalid else .ok { o with source := some (.ofList value) }

/-- An argument on its own: options that are set, and one that waits for its value in the next
argument. -/
abbrev Progress := Except Request (Options × Option Setting)

/-- `--name` or `--name=value`. -/
def readLong (o : Options) (text : List Char) : Progress :=
  let name := text.takeWhile (· ≠ '=')
  match longName? name, text.drop name.length with
  | some (.flag f), [] => (o.setFlag f).map (·, none)
  | some (.setting s), [] => .ok (o, some s)
  | some (.setting s), _ :: value => (o.setValue value s).map (·, none)
  | _, _ => .error .invalid

/-- Letters behind one hyphen. A letter that takes a value takes what is behind it, less an equals
sign. -/
def readShort (o : Options) : List Char → Progress
  | [] => .ok (o, none)
  | c :: rest =>
    match shortName? c, rest with
    | some (.flag f), _ => do readShort (← o.setFlag f) rest
    | some (.setting s), [] => .ok (o, some s)
    | some (.setting s), '=' :: value => (o.setValue value s).map (·, none)
    | some (.setting s), value => (o.setValue value s).map (·, none)
    | none, _ => .error .invalid

def isValue : List Char → Bool
  | ['-'] => true
  | '-' :: _ => false
  | _ => true

/-- Reads the arguments in order; `waiting` is the option whose value comes next. The first thing
that is wrong makes the request invalid. -/
def readFrom (o : Options) (waiting : Option Setting) : List (List Char) → Request
  | [] => if waiting.isSome then .invalid else .run o
  | arg :: rest =>
    match waiting with
    | some s =>
      if isValue arg then
        match o.setValue arg s with
        | .ok o => readFrom o none rest
        | .error r => r
      else .invalid
    | none =>
      let progress : Progress := match arg with
        | ['-', '-'] => if rest.isEmpty then .ok (o, none) else .error .invalid
        | '-' :: '-' :: long => readLong o long
        | '-' :: c :: letters => readShort o (c :: letters)
        | _ => .error .invalid
      match progress with
      | .ok (o, waiting) => readFrom o waiting rest
      | .error r => r

def Request.ofArgs (args : List String) : Request := readFrom {} none (args.map String.toList)

def Options.session (o : Options) : Session where
  settings := { maxDepth := o.maxDepth.getD 256, zeroValues := !o.noZeroValues }
  style := if o.codePoints then .codePoint else .scalar

structure Result where
  code : Nat
  transcript : Transcript
  deriving DecidableEq, Repr

/-- One source from the command line. Its line is printed even if it is empty. -/
def evalOnce (s : Session) (source : String) : Result :=
  match (s.evaluateLine source).answer with
  | .ok line => ⟨0, { out := [line] }⟩
  | .error e => ⟨1, { err := [e.text] }⟩

def usage : String :=
  "usage: sprig [--code-points] [--max-depth N] [--no-zero-values] [-v] [-V] [-e SRC]"

def Request.perform (input : List Char) : Request → Result
  | .run o =>
    match o.source with
    | some source => evalOnce o.session source
    | none => ⟨0, Repl.run o.session input⟩
  | .version => ⟨0, { out := ["sprig " ++ GoDecl.version] }⟩
  | .help => ⟨0, { out := [usage] }⟩
  | .invalid => ⟨2, {}⟩

def run (args : List String) (input : String) : Result :=
  (Request.ofArgs args).perform input.toList

end GoDecl.CommandLine
