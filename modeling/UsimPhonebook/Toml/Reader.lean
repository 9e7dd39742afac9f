import UsimPhonebook.Toml.Quoted
import UsimPhonebook.Toml.Scalar

/-! # Reading TOML

A document is a run of lines: headers of tables, pairs of a key and a value, comments. Each reader
takes a text and gives what it has read together with the rest; `none` refuses the document.

Arrays and inline tables may lie in each other up to `maxDepth` levels.
-/

namespace UsimPhonebook.Toml

/-- The levels of arrays and inline tables that are taken, and the parts of a dotted key. -/
def maxDepth : Nat := 79

/-- Less the blanks in front. -/
def skipBlanks (t : Text) : Text := t.dropWhile fun c => c == ' ' || c == '\t'

/-- Less the blanks, line ends and comments in front. -/
def skipLines (inComment : Bool) : Text → Option Text
  | [] => some []
  | c :: rest =>
    if c = '\n' then skipLines false rest
    else if c = '\r' ∧ rest.head? = some '\n' then skipLines inComment rest
    else if inComment then if isVisible c then skipLines true rest else none
    else if c = ' ' ∨ c = '\t' then skipLines false rest
    else if c = '#' then skipLines true rest
    else some (c :: rest)

/-- Less the end of a line, which may hold a comment; the text may also end here. -/
def skipLineEnd (t : Text) : Option Text :=
  let t := skipBlanks t
  let t := match t with
    | '#' :: rest => rest.dropWhile isVisible
    | t => t
  match t with
  | [] => some []
  | '\n' :: rest => some rest
  | '\r' :: '\n' :: rest => some rest
  | _ => none

def isBareChar (c : Char) : Bool := c.isAlphanum || c == '_' || c == '-'

/-- One part of a key. -/
def readKeyPart (t : Text) : Option (Text × Text) :=
  match t with
  | [] => none
  | c :: rest =>
    if c = doubleQuote ∨ c = singleQuote then readShort c rest
    else if isBareChar c then some (t.takeWhile isBareChar, t.dropWhile isBareChar)
    else none

/-- A key of at most `bound` parts, with blanks around it and around its dots: the parents and the
last part. -/
def readKey : Nat → Text → Option (List Text × Text × Text)
  | 0, _ => none
  | bound + 1, t => do
    let (part, t) ← readKeyPart (skipBlanks t)
    match skipBlanks t with
    | '.' :: rest =>
      let (parents, last, t) ← readKey bound rest
      return (part :: parents, last, t)
    | t => return ([], part, t)

mutual

/-- A value. The first number bounds the steps, the second the levels. -/
def readValue : Nat → Nat → Text → Option (Toml × Text)
  | 0, _, _ => none
  | fuel + 1, depth, t =>
    match t with
    | [] => none
    | c :: rest =>
      if c = doubleQuote ∨ c = singleQuote then
        (readQuoted c rest).map fun (text, t) => (string text, t)
      else if c = '[' then
        match depth with
        | 0 => none
        | depth + 1 => readItems fuel depth [] rest
      else if c = '\x7b' then
        match depth with
        | 0 => none
        | depth + 1 =>
          match skipBlanks rest with
          | '\x7d' :: rest => some (inlineTable [], rest)
          | rest => readPairs fuel depth [] rest
      else
        let (literal, t) := splitLiteral t
        (scalar? literal).map fun value => (value, t)

/-- The items of an array, those before last one first. -/
def readItems : Nat → Nat → List Toml → Text → Option (Toml × Text)
  | 0, _, _, _ => none
  | fuel + 1, depth, items, t => do
    match ← skipLines false t with
    | ']' :: rest => return (array items.reverse, rest)
    | t =>
      let (item, t) ← readValue fuel depth t
      match ← skipLines false t with
      | ',' :: rest => readItems fuel depth (item :: items) rest
      | ']' :: rest => return (array (item :: items).reverse, rest)
      | _ => none

/-- The pairs of an inline table, those before last one first. -/
def readPairs : Nat → Nat → List (List Text × Text × Toml) → Text → Option (Toml × Text)
  | 0, _, _, _ => none
  | fuel + 1, depth, pairs, t => do
    let (path, key, t) ← readKey maxDepth t
    match t with
    | '=' :: rest =>
      let (value, t) ← readValue fuel depth (skipBlanks rest)
      let pairs := (path, key, value) :: pairs
      match skipBlanks t with
      | ',' :: rest => readPairs fuel depth pairs rest
      | '\x7d' :: rest => (ofPairs? pairs.reverse).map fun value => (value, rest)
      | _ => none
    | _ => none

end

inductive Line
  | blank
  | header (path : List Text) (key : Text)
  /-- a header of an item of an array of tables -/
  | itemHeader (path : List Text) (key : Text)
  | pair (path : List Text) (key : Text) (value : Toml)
  deriving Repr

def readLine (t : Text) : Option (Line × Text) :=
  match skipBlanks t with
  | '[' :: '[' :: rest => do
    match ← readKey maxDepth rest with
    | (path, key, ']' :: ']' :: t) => return (.itemHeader path key, t)
    | _ => none
  | '[' :: rest => do
    match ← readKey maxDepth rest with
    | (path, key, ']' :: t) => return (.header path key, t)
    | _ => none
  | t =>
    match t with
    | [] => some (.blank, t)
    | c :: _ =>
      if c = '#' ∨ c = '\n' ∨ c = '\r' then some (.blank, t)
      else do
        match ← readKey maxDepth t with
        | (path, key, '=' :: t) =>
          let (value, t) ← readValue (2 * t.length + 2) maxDepth (skipBlanks t)
          return (.pair path key value, t)
        | _ => none

/-- The lines of a text; the number bounds how many there are. -/
def readLines : Nat → Text → Option (List Line)
  | _, [] => some []
  | 0, _ => none
  | bound + 1, t => do
    let (line, t) ← readLine t
    let rest ← readLines bound (← skipLineEnd t)
    return line :: rest

/-- A document so far, and the path of the table that its pairs go to. -/
structure Assembly where
  document : Toml := emptyDocument
  current : List Text := []

/-- Takes up a line. -/
def Assembly.add (a : Assembly) : Line → Option Assembly
  | .blank => some a
  | .header path key =>
    (openTable path key a.document).map fun document => { document, current := path ++ [key] }
  | .itemHeader path key =>
    (openItem path key a.document).map fun document => { document, current := path ++ [key] }
  | .pair path key value =>
    (changeAt false (put path key value) a.current a.document).map fun document =>
      { a with document }

/-- Less a byte order mark in front. -/
def skipMark : Text → Text
  | '\uFEFF' :: rest => rest
  | t => t

def read? (t : Text) : Option Toml := do
  let t := skipMark t
  let lines ← readLines t.length t
  let assembly ← lines.foldlM Assembly.add {}
  return assembly.document

end UsimPhonebook.Toml
