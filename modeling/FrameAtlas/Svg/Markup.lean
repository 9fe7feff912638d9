namespace FrameAtlas

inductive Markup where
  | opening (name : String) (attributes : List (String × String))
  | closing (name : String)
  | empty (name : String) (attributes : List (String × String))
  | text (s : String)
deriving DecidableEq, Repr

namespace Markup

def replaceChar (c : Char) (text : List Char) (s : List Char) : List Char :=
  s.flatMap fun d => if d = c then text else [d]

def ampText : List Char := ['&', 'a', 'm', 'p', ';']

def ltText : List Char := ['&', 'l', 't', ';']

def gtText : List Char := ['&', 'g', 't', ';']

def quotText : List Char := ['&', 'q', 'u', 'o', 't', ';']

def aposText : List Char := ['&', 'a', 'p', 'o', 's', ';']

def escape (s : List Char) : List Char :=
  replaceChar '\'' aposText <| replaceChar '"' quotText <| replaceChar '>' gtText <|
    replaceChar '<' ltText <| replaceChar '&' ampText s

def escaped (s : String) : String := String.ofList (escape s.toList)

def renderAttribute (a : String × String) : String := " " ++ a.1 ++ "=\"" ++ escaped a.2 ++ "\""

def renderAttributes (attributes : List (String × String)) : String :=
  String.join (attributes.map renderAttribute)

def render : Markup → String
  | opening name attributes => "<" ++ name ++ renderAttributes attributes ++ ">"
  | closing name => "</" ++ name ++ ">"
  | empty name attributes => "<" ++ name ++ renderAttributes attributes ++ "/>"
  | text s => escaped s

def renderAll (pieces : List Markup) : String := String.join (pieces.map render)

end Markup

end FrameAtlas
