import LineForth.Text.Quoted

/-! # Command line options

The arguments of the program are read in two passes. The first takes each argument for a flag,
perhaps with a text attached to it, or for a stray: a flag is written out, shortened to a beginning
that no other long flag shares, or run together with further flags behind one hyphen. A double
hyphen makes itself and everything behind it strays. The second pass raises the flags from left to
right until one asks for help or has a text attached that it cannot take; strays are refused at the
end.
-/

namespace LineForth

inductive Flag
  | help
  | verbose
  | version
deriving DecidableEq, Repr

structure Options where
  verbose : Bool := false
  version : Bool := false
deriving DecidableEq, Repr

/-- Why the program ends before it starts. -/
inductive Dismissal
  | helpAsked
  | misused (problem : String)
deriving DecidableEq, Repr

namespace Flag

def letter? : Flag → Option Char
  | help => some 'h'
  | verbose => some 'v'
  | version => none

def word : Flag → String
  | help => "help"
  | verbose => "verbose"
  | version => "version"

def long (flag : Flag) : String := "--" ++ flag.word

def label (flag : Flag) : String :=
  match flag.letter? with
  | some letter => "-" ++ String.singleton letter ++ "/" ++ flag.long
  | none => flag.long

/-- The flags in the order in which usage lists them. -/
def all : List Flag := [help, verbose, version]

def ofLetter? (letter : Char) : Option Flag := all.find? (·.letter? = some letter)

end Flag

inductive Argument
  | stray (text : String)
  /-- A long flag, perhaps with a text behind an equality sign. -/
  | long (flag : Flag) (attached : Option (List Char))
  /-- A letter, perhaps with a text run on to it. -/
  | short (flag : Flag) (attached : Option (List Char))
deriving DecidableEq, Repr

namespace Argument

def splitEquality (text : List Char) : List Char × Option (List Char) :=
  match text.dropWhile (· ≠ '=') with
  | [] => (text, none)
  | _ :: attached => (text.takeWhile (· ≠ '='), some attached)

/-- Read the characters behind a double hyphen: the flag written out, or else the one flag that they
begin; it is a misuse to leave it open which of several flags is meant. -/
def ofWord (argument : String) (text : List Char) : Except Dismissal Argument :=
  let (word, attached) := splitEquality text
  match Flag.all.find? (·.word.toList = word) with
  | some flag => .ok (.long flag attached)
  | none =>
      match Flag.all.filter (word.isPrefixOf ·.word.toList) with
      | [] => .ok (.stray argument)
      | [flag] => .ok (.long flag attached)
      | flags =>
          .error (.misused ("ambiguous option: " ++ argument ++ " could match " ++
            ", ".intercalate (flags.map Flag.long)))

/-- Read the letter behind a single hyphen. An equality sign right behind it parts it from a text,
and any other character is the beginning of one. -/
def ofLetter (argument : String) (letter : Char) (text : List Char) : Argument :=
  match Flag.ofLetter? letter, text with
  | none, _ => .stray argument
  | some flag, [] => .short flag none
  | some flag, '=' :: attached | some flag, attached => .short flag (some attached)

def ofString (argument : String) : Except Dismissal Argument :=
  match argument.toList with
  | '-' :: '-' :: text => ofWord argument text
  | '-' :: letter :: text => .ok (ofLetter argument letter text)
  | _ => .ok (.stray argument)

/-- Read arguments up to a double hyphen, which makes strays of itself and of those behind it. -/
def ofStrings : List String → Except Dismissal (List Argument)
  | [] => .ok []
  | "--" :: rest => .ok (.stray "--" :: rest.map .stray)
  | argument :: rest => do
      let first ← ofString argument
      let later ← ofStrings rest
      return first :: later

end Argument

namespace Options

def raise (options : Options) : Flag → Except Dismissal Options
  | .help => .error .helpAsked
  | .verbose => .ok { options with verbose := true }
  | .version => .ok { options with version := true }

def refuse (flag : Flag) (attached : List Char) : Dismissal :=
  .misused ("argument " ++ flag.label ++ ": ignored explicit argument " ++
    Text.Quoted.encode (String.ofList attached))

/-- The flags of the letters that run on from a flag; the first character that is no letter of a
flag makes a misuse of itself and all behind it. -/
def cluster (flag : Flag) : List Char → Except Dismissal (List Flag)
  | [] => .ok [flag]
  | letter :: rest =>
      match Flag.ofLetter? letter with
      | none => .error (refuse flag (letter :: rest))
      | some next => (cluster next rest).map (flag :: ·)

/-- The flags of one argument, all known before the first of them is raised. -/
def flagsOf : Argument → Except Dismissal (List Flag)
  | .stray _ => .ok []
  | .long flag none | .short flag none => .ok [flag]
  | .long flag (some attached) => .error (refuse flag attached)
  | .short flag (some []) => .error (refuse flag [])
  | .short flag (some attached) => cluster flag attached

def raiseAll (options : Options) : List Argument → Except Dismissal Options
  | [] => .ok options
  | argument :: rest => do
      let flags ← flagsOf argument
      let raised ← flags.foldlM raise options
      raised.raiseAll rest

def stray? : Argument → Option String
  | .stray text => some text
  | .long _ _ | .short _ _ => none

def ofArguments (arguments : List String) : Except Dismissal Options := do
  let readings ← Argument.ofStrings arguments
  let options ← raiseAll {} readings
  match readings.filterMap stray? with
  | [] => return options
  | strays => .error (.misused ("unrecognized arguments: " ++ " ".intercalate strays))

end Options

namespace Dismissal

def usage : String := "usage: oxforth [-h] [-v] [--version]\n"

def help : String :=
  usage ++
    "\nInteractive interpreter for a small Forth-like language\n" ++
    "\noptions:\n" ++
    "  -h, --help     show this help message and exit\n" ++
    "  -v, --verbose  print scan, parse, and execute details for each line\n" ++
    "  --version      print interpreter version and exit\n" ++
    "\nThis program is free software: you can redistribute it and/or modify\n" ++
    "it under the terms of the GNU General Public License as published by\n" ++
    "the Free Software Foundation, version 3 of the License. This program\n" ++
    "comes with ABSOLUTELY NO WARRANTY.\n"

def output : Dismissal → String
  | helpAsked => help
  | misused _ => ""

def errors : Dismissal → String
  | helpAsked => ""
  | misused problem => usage ++ "oxforth: error: " ++ problem ++ "\n"

def status : Dismissal → Nat
  | helpAsked => 0
  | misused _ => 2

end Dismissal

end LineForth
