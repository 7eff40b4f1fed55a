import ContainerStack.Yaml.Printer

/-!
Reading documents written in YAML. The reader knows block mappings and lists,
flow mappings and lists over any number of lines, quoted scalars, plain scalars
on one line, comments and a document marker; JSON texts are among what it reads.
Anchors, tags, directives, block scalars and plain scalars over several lines
are not read. A key given again overwrites the value of the first. The readers
carry the line and column at which they stand, and fuel above twice the length
of the text.
-/

namespace ContainerStack.Yaml

open Text

/-- A place in a text: its line, its column and what follows. -/
structure Cursor where
  line : Nat
  column : Nat
  rest : List Char

def isTab (c : Char) : Bool :=
  c == ' ' || c == '\t'

/-- The line breaks in a text. A line separator and a paragraph separator stand
for themselves and any other break for a line feed. -/
def breaksOf : List Char → List Char
  | [] => []
  | '\r' :: '\n' :: rest => '\n' :: breaksOf rest
  | c :: rest =>
    if c = '\u2028' ∨ c = '\u2029' then c :: breaksOf rest
    else if isBreak c then '\n' :: breaksOf rest
    else breaksOf rest

/-- What blanks and line breaks inside a quoted scalar stand for. A single line
feed becomes a space; before others the first one is dropped. Blanks next to a
break do not count. -/
def folded (run : List Char) : List Char :=
  match breaksOf run with
  | [] => run
  | ['\n'] => [' ']
  | '\n' :: others => others
  | breaks => breaks

namespace Cursor

/-- Passes a number of characters that are no line breaks. -/
def skip (c : Cursor) (n : Nat) : Cursor :=
  ⟨c.line, c.column + n, c.rest.drop n⟩

/-- Passes the blanks and line breaks at the cursor. -/
def skipRun (c : Cursor) : Cursor :=
  let run := c.rest.takeWhile isBlankOrBreak
  let rest := c.rest.dropWhile isBlankOrBreak
  let breaks := (breaksOf run).length
  if breaks = 0 then ⟨c.line, c.column + run.length, rest⟩
  else ⟨c.line + breaks, (run.reverse.takeWhile fun d => !isBreak d).length, rest⟩

/-- Passes the blanks on the line. -/
def skipBlanks (c : Cursor) : Cursor :=
  c.skip (c.rest.takeWhile isTab).length

def skipSpaces (c : Cursor) : Cursor :=
  c.skip (c.rest.takeWhile isSpace).length

/-- Passes blanks, line ends and comments. In a block, no tab may stand where a
key could begin, which `fresh` says of the place and holds of every line. A byte
order mark may begin a line. -/
def gap (flow : Bool) : (comment fresh : Bool) → (line column : Nat) → List Char → Cursor
  | _, _, line, column, [] => ⟨line, column, []⟩
  | _, _, line, _, '\r' :: '\n' :: rest => gap flow false true (line + 1) 0 rest
  | comment, fresh, line, column, c :: rest =>
    if isBreak c then gap flow false true (line + 1) 0 rest
    else if comment then gap flow true fresh line (column + 1) rest
    else if c = ' ' ∨ (c = '\t' ∧ (flow ∨ !fresh)) ∨ (c = '\ufeff' ∧ column = 0) then
      gap flow false fresh line (column + 1) rest
    else if c = '#' then gap flow true fresh line (column + 1) rest
    else ⟨line, column, c :: rest⟩

def skipFlowGap (c : Cursor) : Cursor :=
  gap true false false c.line c.column c.rest

def skipBlockGap (c : Cursor) (fresh : Bool) : Cursor :=
  gap false false fresh c.line c.column c.rest

/-- Whether the line ends here or goes on with a comment. -/
def endsLine (c : Cursor) : Bool :=
  match c.rest with
  | [] => true
  | d :: _ => isBreak d || d == '#'

/-- Whether a document marker begins the line. -/
def atMarker (c : Cursor) : Bool :=
  c.column == 0 && startsMarker c.rest && endsOrBlank (c.rest.drop 3)

end Cursor

def isFlowMark (c : Char) : Bool :=
  c ∈ [',', '[', ']', '{', '}']

/-- A raw character that no document may hold. -/
def isForbidden (c : Char) : Bool :=
  !isPrintable c && c != '\t' && c != '\r' && c != '\x85' && c != '\ufeff'

/-- The number of hexadecimal digits of a numeric escape, by its letter. -/
def escapeWidth? (c : Char) : Option Nat :=
  if c = 'x' then some 2 else if c = 'u' then some 4 else if c = 'U' then some 8 else none

def escapedChar? (c : Char) : Option Char :=
  match c with
  | '0' => some '\x00'
  | 'a' => some '\x07'
  | 'b' => some '\x08'
  | 't' => some '\t'
  | '\t' => some '\t'
  | 'n' => some '\n'
  | 'v' => some '\x0b'
  | 'f' => some '\x0c'
  | 'r' => some '\r'
  | 'e' => some '\x1b'
  | ' ' => some ' '
  | '"' => some '"'
  | '/' => some '/'
  | '\\' => some '\\'
  | 'N' => some '\x85'
  | '_' => some '\xa0'
  | 'L' => some '\u2028'
  | 'P' => some '\u2029'
  | _ => none

/-- The character with a code, if there is one. -/
def charOfCode? (n : Nat) : Option Char :=
  if n < 0xD800 ∨ (0xDFFF < n ∧ n < 0x110000) then some (Char.ofNat n) else none

def hexCode? (width : Nat) (cs : List Char) : Option Nat :=
  if cs.length < width then none else digitsInBase? 16 (cs.take width)

/-- The rest of a quoted scalar up to and with the given mark; `done` is last
first. Double quotes know escapes, one of which takes a line break away, and in
single quotes the mark is written twice. -/
def quoted? (mark : Char) : (fuel : Nat) → (done : List Char) → Cursor →
    Option (List Char × Cursor)
  | 0, _, _ => none
  | fuel + 1, done, c =>
    if c.atMarker then none
    else
      match c.rest with
      | [] => none
      | d :: rest =>
        if d = mark then
          if mark = '\'' ∧ rest.head? = some '\'' then quoted? mark fuel ('\'' :: done) (c.skip 2)
          else some (done.reverse, c.skip 1)
        else if isBlankOrBreak d then
          let run := c.rest.takeWhile isBlankOrBreak
          quoted? mark fuel ((folded run).reverse ++ done) c.skipRun
        else if d = '\\' ∧ mark = '"' then
          match rest with
          | [] => none
          | letter :: more =>
            if isBreak letter then
              let run := rest.takeWhile isBlankOrBreak
              quoted? mark fuel (((breaksOf run).drop 1).reverse ++ done) (c.skip 1).skipRun
            else
              match escapeWidth? letter with
              | some width => do
                let code ← hexCode? width more
                let e ← charOfCode? code
                quoted? mark fuel (e :: done) (c.skip (2 + width))
              | none => do
                let e ← escapedChar? letter
                quoted? mark fuel (e :: done) (c.skip 2)
        else quoted? mark fuel (d :: done) (c.skip 1)

/-- The characters of a plain scalar on one line, up to a mark that ends it. -/
def plainRun (flow : Bool) : (previous : Char) → List Char → List Char
  | _, [] => []
  | previous, c :: rest =>
    let endsHere := isBreak c || (flow && isFlowMark c) ||
      (c == '#' && isTab previous) ||
      (c == ':' && match rest with
        | [] => true
        | d :: _ => isBlankOrBreak d || (flow && isFlowMark d))
    if endsHere then [] else c :: plainRun flow c rest

def canStartPlain (flow : Bool) : List Char → Bool
  | [] => false
  | c :: rest =>
    if c = '-' ∨ c = '?' ∨ c = ':' then
      match rest with
      | [] => false
      | d :: _ => !isBlankOrBreak d && !(flow && isFlowMark d)
    else !isLeadingIndicator c && !isBlankOrBreak c

/-- A scalar as written: quoted scalars are texts, plain ones may be others. -/
inductive Written where
  | quoted (chars : List Char)
  | plain (chars : List Char)

def Written.key : Written → String
  | .quoted chars => String.ofList chars
  | .plain chars => String.ofList chars

def Written.toJson? : Written → Option Json
  | .quoted chars => some (.str (String.ofList chars))
  | .plain chars => Scalar.toJson? chars

/-- A scalar at the cursor. -/
def scalar? (flow : Bool) (c : Cursor) : Option (Written × Cursor) :=
  match c.rest with
  | '"' :: _ =>
    (quoted? '"' (c.rest.length + 1) [] (c.skip 1)).map fun (chars, c) => (.quoted chars, c)
  | '\'' :: _ =>
    (quoted? '\'' (c.rest.length + 1) [] (c.skip 1)).map fun (chars, c) => (.quoted chars, c)
  | cs =>
    if canStartPlain flow cs then
      let run := plainRun flow ' ' cs
      some (.plain (run.reverse.dropWhile isTab).reverse, c.skip run.length)
    else none

/-- The most characters from the start of a key to its colon. -/
def keyLimit : Nat :=
  1024

/-- Passes the colon between a key, from its start on, and its value. The colon
stands on the line on which the key starts. In a flow mapping no blank is needed
between the colon of a quoted key and the value. -/
def colon? (flow : Bool) (start : Cursor) (key : Written) (c : Cursor) : Option Cursor :=
  let c := c.skipBlanks
  if c.line ≠ start.line ∨ c.column > start.column + keyLimit then none
  else
    match c.rest with
    | ':' :: rest =>
      let adjacent := match key with
        | .quoted _ => flow
        | .plain _ => false
      let separated := match rest with
        | [] => true
        | d :: _ => isBlankOrBreak d || (flow && isFlowMark d)
      if adjacent || separated then some (c.skip 1) else none
    | _ => none

mutual

/-- A flow value: a list in brackets, a mapping in braces, or a scalar. -/
def flowValue? : (fuel : Nat) → Cursor → Option (Json × Cursor)
  | 0, _ => none
  | fuel + 1, c =>
    match c.rest with
    | '[' :: _ => (flowItems? fuel (c.skip 1)).map fun (xs, c) => (.arr xs, c)
    | '{' :: _ => (flowMembers? fuel [] (c.skip 1)).map fun (ms, c) => (.obj ms, c)
    | _ => do
      let (written, c) ← scalar? true c
      let x ← written.toJson?
      some (x, c)

/-- Items up to and with the closing bracket. An item may be a single pair. -/
def flowItems? : (fuel : Nat) → Cursor → Option (List Json × Cursor)
  | 0, _ => none
  | fuel + 1, c => do
    let c := c.skipFlowGap
    if c.rest.head? = some ']' then some ([], c.skip 1)
    else
      let (x, c) ← flowItem? fuel c
      let c := c.skipFlowGap
      match c.rest with
      | ',' :: _ =>
        let (xs, c) ← flowItems? fuel (c.skip 1)
        some (x :: xs, c)
      | ']' :: _ => some ([x], c.skip 1)
      | _ => none

def flowItem? : (fuel : Nat) → Cursor → Option (Json × Cursor)
  | 0, _ => none
  | fuel + 1, c =>
    match scalar? true c with
    | some (key, after) =>
      match colon? true c key after with
      | some c => do
        let (x, c) ← flowMemberValue? fuel c
        some (.obj [(key.key, x)], c)
      | none => key.toJson?.map fun x => (x, after)
    | none => flowValue? fuel c

/-- The value of a member, null if there is none. -/
def flowMemberValue? : (fuel : Nat) → Cursor → Option (Json × Cursor)
  | 0, _ => none
  | fuel + 1, c =>
    let c := c.skipFlowGap
    match c.rest with
    | ',' :: _ => some (.null, c)
    | '}' :: _ => some (.null, c)
    | ']' :: _ => some (.null, c)
    | _ => flowValue? fuel c

/-- Members after those of `done`, up to and with the closing brace. -/
def flowMembers? : (fuel : Nat) → (done : Entries Json) → Cursor →
    Option (Entries Json × Cursor)
  | 0, _, _ => none
  | fuel + 1, done, c => do
    let c := c.skipFlowGap
    if c.rest.head? = some '}' then some (done, c.skip 1)
    else
      let (key, after) ← scalar? true c
      let (x, c) ← match colon? true c key after with
        | some c => flowMemberValue? fuel c
        | none => some (.null, after)
      let done := Entries.put key.key x done
      let c := c.skipFlowGap
      match c.rest with
      | ',' :: _ => flowMembers? fuel done (c.skip 1)
      | '}' :: _ => some (done, c.skip 1)
      | _ => none

end

def startsFlow (c : Cursor) : Bool :=
  match c.rest with
  | d :: _ => d == '[' || d == '{'
  | [] => false

/-- A dash before a blank. -/
def startsItem (c : Cursor) : Bool :=
  match c.rest with
  | '-' :: rest => endsOrBlank rest
  | _ => false

/-- A value that ends its line. -/
def lineValue? (fuel : Nat) (c : Cursor) : Option (Json × Cursor) := do
  let (x, c) ← if startsFlow c then flowValue? fuel c
    else do
      let (written, c) ← scalar? false c
      let x ← written.toJson?
      some (x, c)
  if c.skipBlanks.endsLine then some (x, c) else none

mutual

/-- The block at the cursor, which stands at its first character. -/
def block? : (fuel : Nat) → Cursor → Option (Json × Cursor)
  | 0, _ => none
  | fuel + 1, c =>
    if startsItem c then (blockItems? fuel c.column c).map fun (xs, c) => (.arr xs, c)
    else if startsFlow c then lineValue? fuel c
    else do
      let (key, after) ← scalar? false c
      match colon? false c key after with
      | some _ => (blockMembers? fuel c.column [] c).map fun (ms, c) => (.obj ms, c)
      | none => lineValue? fuel c

/-- The items of a list whose dashes stand at the given column. -/
def blockItems? : (fuel column : Nat) → Cursor → Option (List Json × Cursor)
  | 0, _, _ => none
  | fuel + 1, column, c => do
    let inner := (c.skip 1).skipSpaces
    let (x, c) ← if inner.endsLine then
        let next := inner.skipBlockGap true
        if next.column > column ∧ next.rest ≠ [] then block? fuel next else some (.null, inner)
      else block? fuel inner
    let next := c.skipBlockGap false
    if next.column = column ∧ startsItem next then
      let (xs, c) ← blockItems? fuel column next
      some (x :: xs, c)
    else some ([x], c)

/-- The members of a mapping whose keys stand at the given column, after those
of `done`. -/
def blockMembers? : (fuel column : Nat) → (done : Entries Json) → Cursor →
    Option (Entries Json × Cursor)
  | 0, _, _, _ => none
  | fuel + 1, column, done, c => do
    let (key, after) ← scalar? false c
    let inner := (← colon? false c key after).skipBlanks
    let (x, c) ← if inner.endsLine then
        let next := inner.skipBlockGap false
        if next.rest = [] then some (.null, inner)
        else if next.column > column ∨ (next.column = column ∧ startsItem next) then
          block? fuel next
        else some (.null, inner)
      else lineValue? fuel inner
    let done := Entries.put key.key x done
    let next := c.skipBlockGap false
    if next.column = column ∧ next.rest ≠ [] then blockMembers? fuel column done next
    else some (done, c)

end

/-- Passes a document marker. -/
def skipMarker (c : Cursor) : Cursor :=
  if c.atMarker ∧ c.rest.head? = some '-' then (c.skip 3).skipBlockGap false else c

/-- The most lists and mappings around a value. -/
def depthLimit : Nat :=
  128

/-- The text without a byte order mark at its front. -/
def withoutMark : List Char → List Char
  | '\ufeff' :: rest => rest
  | cs => cs

/-- Reads a text that holds one document; an empty one is null. -/
def ofString? (s : String) : Option Json :=
  let cs := withoutMark s.toList
  if cs.any isForbidden then none
  else
    let c := skipMarker (Cursor.skipBlockGap ⟨0, 0, cs⟩ true)
    if c.rest = [] then some .null
    else
      match block? (2 * cs.length + 4) c with
      | some (x, c) =>
        if (c.skipBlockGap false).rest = [] ∧ x.depth ≤ depthLimit then some x else none
      | none => none

end ContainerStack.Yaml
