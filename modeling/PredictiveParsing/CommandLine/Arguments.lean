/-!
# Command lines

A command line names a command and the files it works on. Options begin with a dash and may
stand anywhere; behind two dashes everything is a file name. How often the option for more
output is given counts; if it is given both before and behind the command, the latter counts.

## Main definitions

* `Command`, `Invocation`: what a command line asks for
* `Request.ofArguments`: reading a command line
-/

namespace PredictiveParsing

/-- **What is to be done.** -/
inductive Command where
  /-- Emit a parser for a grammar file. -/
  | emit (grammar : String) (output : Option String) (withMain : Bool)
  /-- Parse a file with a grammar file. -/
  | parse (grammar input : String)
  /-- Report on a grammar file. -/
  | analyze (grammar : String)
  /-- Write out the symbol graph of a grammar file. -/
  | graph (grammar : String)
deriving DecidableEq

/-- A command, and how much is to be noted. -/
structure Invocation where
  /-- How often more output is asked for. -/
  verbosity : Nat
  /-- The command. -/
  command : Command
deriving DecidableEq

/-- **What a command line asks for.** -/
inductive Request where
  /-- Run a command. -/
  | invoke (invocation : Invocation)
  /-- Show the version. -/
  | version
  /-- Show how commands are written. -/
  | help
  /-- It cannot be understood. -/
  | misuse
deriving DecidableEq

/-- The forms of commands. -/
inductive CommandForm where
  /-- Emission: a grammar file, and options. -/
  | emit
  /-- Parsing: a grammar file and an input file. -/
  | parse
  /-- A report: a grammar file. -/
  | analyze
  /-- A graph: a grammar file. -/
  | graph
deriving DecidableEq

namespace CommandForm

/-- The form with a name. -/
def ofName? : String → Option CommandForm
  | "emit" => some emit
  | "parse" => some parse
  | "analyze" => some analyze
  | "graph" => some graph
  | _ => none

/-- The number of files that a command works on. -/
def fileCount : CommandForm → Nat
  | emit => 1
  | parse => 2
  | analyze => 1
  | graph => 1

end CommandForm

/-- What was read of a command line so far. -/
structure Gathered where
  /-- How often more output was asked for. -/
  verbosity : Nat := 0
  /-- The files, the latest first. -/
  files : List String := []
  /-- The file to write to. -/
  output : Option String := none
  /-- Whether a program of its own is asked for. -/
  withMain : Bool := false

namespace Gathered

/-- One more request for more output. -/
def louder (g : Gathered) : Gathered := { g with verbosity := g.verbosity + 1 }

/-- One more file; a name must not be empty. -/
def addFile (form : CommandForm) (g : Gathered) (name : String) : Except Request Gathered :=
  if name.isEmpty || g.files.length == form.fileCount then .error .misuse
  else .ok { g with files := name :: g.files }

/-- The file to write to; it may be given once. -/
def setOutput (g : Gathered) (name : String) : Except Request Gathered :=
  if name.isEmpty || g.output.isSome then .error .misuse else .ok { g with output := some name }

/-- The request for a program of its own; it may be given once. -/
def setMain (g : Gathered) : Except Request Gathered :=
  if g.withMain then .error .misuse else .ok { g with withMain := true }

/-- What is left to do after an option. -/
inductive After where
  /-- Nothing. -/
  | done
  /-- The next argument is the file to write to. -/
  | outputFollows

/-- Reads a group of one-letter options, given without the dash. -/
def readLetters (form : CommandForm) (g : Gathered) :
    List Char → Except Request (Gathered × After)
  | [] => .ok (g, .done)
  | 'v' :: rest => readLetters form g.louder rest
  | 'h' :: _ => .error .help
  | 'o' :: rest =>
    if form = .emit then
      match rest with
      | [] => .ok (g, .outputFollows)
      | '=' :: name => (g.setOutput (String.ofList name)).map (·, .done)
      | name => (g.setOutput (String.ofList name)).map (·, .done)
    else .error .misuse
  | _ => .error .misuse

/-- Reads an option with a long name, given without the dashes. -/
def readName (form : CommandForm) (g : Gathered) (option : List Char) :
    Except Request (Gathered × After) :=
  let name := String.ofList (option.takeWhile (· != '='))
  let value? := (option.dropWhile (· != '=')).tail?.map String.ofList
  match name, value? with
  | "verbose", none => .ok (g.louder, .done)
  | "help", none => .error .help
  | "output", none => if form = .emit then .ok (g, .outputFollows) else .error .misuse
  | "output", some name =>
    if form = .emit then (g.setOutput name).map (·, .done) else .error .misuse
  | "main", none => if form = .emit then g.setMain.map (·, .done) else .error .misuse
  | _, _ => .error .misuse

/-- Reads the arguments behind the name of a command. -/
def read (form : CommandForm) (g : Gathered) : List String → Except Request Gathered
  | [] => .ok g
  | argument :: rest =>
    match argument.toList with
    | ['-', '-'] => rest.foldlM (addFile form) g
    | '-' :: '-' :: option =>
      match readName form g option with
      | .error r => .error r
      | .ok (g, .done) => read form g rest
      | .ok (g, .outputFollows) => readOutput form g rest
    | '-' :: letter :: letters =>
      match readLetters form g (letter :: letters) with
      | .error r => .error r
      | .ok (g, .done) => read form g rest
      | .ok (g, .outputFollows) => readOutput form g rest
    | _ =>
      match g.addFile form argument with
      | .error r => .error r
      | .ok g => read form g rest
where
  /-- Reads the name of the file to write to, and the arguments behind it. An option is no
  such name. -/
  readOutput (form : CommandForm) (g : Gathered) : List String → Except Request Gathered
    | [] => .error .misuse
    | name :: rest =>
      match name.toList with
      | '-' :: _ :: _ => .error .misuse
      | _ =>
        match g.setOutput name with
        | .error r => .error r
        | .ok g => read form g rest

/-- The command of a form. -/
def command? (g : Gathered) : CommandForm → Option Command
  | .emit =>
    match g.files with
    | [grammar] => some (.emit grammar g.output g.withMain)
    | _ => none
  | .parse =>
    match g.files with
    | [input, grammar] => some (.parse grammar input)
    | _ => none
  | .analyze =>
    match g.files with
    | [grammar] => some (.analyze grammar)
    | _ => none
  | .graph =>
    match g.files with
    | [grammar] => some (.graph grammar)
    | _ => none

end Gathered

namespace Request

/-- Reads a command line from the name of a command on. -/
def ofCommand (verbosity : Nat) (name : String) (arguments : List String) : Request :=
  match CommandForm.ofName? name with
  | some form =>
    match Gathered.read form {} arguments with
    | .error r => r
    | .ok g =>
      match g.command? form with
      | some command =>
        -- a count behind the command replaces the one before it
        .invoke ⟨if g.verbosity = 0 then verbosity else g.verbosity, command⟩
      | none => .misuse
  | none =>
    if name = "help" then
      match arguments with
      | [] => .help
      | [topic] =>
        if (CommandForm.ofName? topic).isSome || topic == "help" then .help else .misuse
      | _ => .misuse
    else .misuse

/-- Reads a group of one-letter options before the command: the request that ends the line
there, or how often more output is asked for. -/
def readLetters (verbosity : Nat) : List Char → Except Request Nat
  | [] => .ok verbosity
  | 'v' :: rest => readLetters (verbosity + 1) rest
  | 'V' :: _ => .error .version
  | 'h' :: _ => .error .help
  | _ => .error .misuse

/-- Reads a command line, given how often more output was asked for before it. -/
def readFrom (verbosity : Nat) : List String → Request
  | [] => .misuse
  | argument :: rest =>
    match argument.toList with
    | '-' :: '-' :: option =>
      match String.ofList option with
      | "verbose" => readFrom (verbosity + 1) rest
      | "version" => .version
      | "help" => .help
      | _ => .misuse
    | '-' :: letter :: letters =>
      match readLetters verbosity (letter :: letters) with
      | .ok verbosity => readFrom verbosity rest
      | .error r => r
    | _ => ofCommand verbosity argument rest

/-- **Reads a command line.** -/
def ofArguments (arguments : List String) : Request := readFrom 0 arguments

end Request

end PredictiveParsing
