import LineForth.Dictionary
import LineForth.Text.Bracketed

/-! # Tokens

A token is a run of graphic characters together with what it was taken for when it was read. Digits
alone make a number, even where a word of that name is defined.
-/

namespace LineForth

/-- What a run of graphic characters is taken for. -/
inductive TokenKind
  | number
  | word
  | undefined
deriving DecidableEq, Repr

/-- A run of graphic characters with its kind. -/
structure Token where
  text : String
  kind : TokenKind
deriving DecidableEq, Repr

namespace TokenKind

def name : TokenKind → String
  | number => "NUMBER"
  | word => "WORD"
  | undefined => "UNDEFINED"

/-- The value that a kind stands for in records. -/
def label : TokenKind → String
  | number => "number"
  | word => "word"
  | undefined => "undefined"

/-- The kind of a text: a number if it holds digits alone, else a word if it is defined. -/
def classify (dictionary : Dictionary) (text : String) : TokenKind :=
  if text.toList.all Char.isDigit then number
  else if dictionary.contains text then word
  else undefined

end TokenKind

namespace Token

def ofText (dictionary : Dictionary) (text : String) : Token :=
  ⟨text, TokenKind.classify dictionary text⟩

/-- A token with its kind spelt out, as it stands in records. -/
def render (token : Token) : String :=
  "Token(text=" ++ Text.Quoted.encode token.text ++ ", classification=<Classification." ++
    token.kind.name ++ ": '" ++ token.kind.label ++ "'>)"

def renderAll (tokens : List Token) : String := Text.bracketed (tokens.map render)

end Token

end LineForth
