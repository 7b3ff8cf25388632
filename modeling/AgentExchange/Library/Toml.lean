import Mathlib.Data.List.Basic
import Mathlib.Tactic

/-!
# TOML

A reader of TOML 1.0 documents. A document is the list of its nodes, each with the path that
leads to it from the root; two documents say the same when they have the same nodes. Readers take
what they read off the front of a text. A loop over a text is given a number of rounds, which is
more than the text has characters.
-/
namespace AgentExchange.Library.Toml

/-! ## Documents -/

abbrev Key := List Char

inductive Seg where
  | key (name : Key)
  | item (index : ℕ)
  deriving DecidableEq

abbrev Path := List Seg

inductive Node where
  | string (text : List Char)
  | integer (n : ℤ)
  | boolean (b : Bool)
  | float (text : List Char)
  | dateTime (text : List Char)
  | array
  | table
  deriving DecidableEq

abbrev Nodes := List (Path × Node)

/-- A document that is being read: its nodes, the tables that a header or the dotted keys of an
earlier section have defined, those that dotted keys of this section have, the arrays and inline
tables, which are closed, and the table that is being filled. -/
structure Doc where
  nodes : Nodes := [([], .table)]
  defined : List Path := []
  dotted : List Path := []
  closed : List Path := []
  current : Path := []
  deriving DecidableEq

namespace Doc

def node (d : Doc) (p : Path) : Option Node := (d.nodes.find? fun e => e.1 = p).map Prod.snd

def size (d : Doc) (p : Path) : ℕ :=
  d.nodes.countP fun e => e.1 ≠ [] && e.1.dropLast = p

/-- Goes along keys; what happens at the last of them is left open. -/
def descend (enter : Doc → Path → Option (Path × Doc)) (last : Doc → Path → Option Doc) :
    Doc → Path → List Key → Option Doc
  | _, _, [] => none
  | d, p, [k] => last d (p ++ [.key k])
  | d, p, k :: ks => do
    let (q, d) ← enter d (p ++ [.key k])
    descend enter last d q ks

/-- A table that dotted keys lead through. -/
def enterDotted (d : Doc) (q : Path) : Option (Path × Doc) :=
  match d.node q with
  | none => some (q, { d with nodes := d.nodes ++ [(q, .table)], dotted := d.dotted ++ [q] })
  | some .table =>
    if q ∈ d.defined || q ∈ d.closed then none
    else some (q, { d with dotted := d.dotted ++ [q] })
  | some _ => none

/-- What the keys of a header lead through: a table, or the last table of an array. -/
def enterHeader (d : Doc) (q : Path) : Option (Path × Doc) :=
  match d.node q with
  | none => some (q, { d with nodes := d.nodes ++ [(q, .table)] })
  | some .table => if q ∈ d.closed then none else some (q, d)
  | some .array => if q ∈ d.closed then none else some (q ++ [.item (d.size q - 1)], d)
  | some _ => none

def isClosed (value : Nodes) : Bool :=
  match value with
  | (_, .array) :: _ | (_, .table) :: _ => true
  | _ => false

def put (value : Nodes) (d : Doc) (q : Path) : Option Doc :=
  match d.node q with
  | none => some { d with
      nodes := d.nodes ++ value.map fun e => (q ++ e.1, e.2)
      closed := if isClosed value then d.closed ++ [q] else d.closed }
  | some _ => none

def define (d : Doc) (q : Path) : Option Doc :=
  match d.node q with
  | none => some { d with
      nodes := d.nodes ++ [(q, .table)], defined := d.defined ++ [q], current := q }
  | some .table =>
    if q ∈ d.defined || q ∈ d.closed then none
    else some { d with defined := d.defined ++ [q], current := q }
  | some _ => none

def append (d : Doc) (q : Path) : Option Doc :=
  match d.node q with
  | none => some { d with
      nodes := d.nodes ++ [(q, .array), (q ++ [.item 0], .table)], current := q ++ [.item 0] }
  | some .array =>
    if q ∈ d.closed then none
    else some { d with
      nodes := d.nodes ++ [(q ++ [.item (d.size q)], .table)], current := q ++ [.item (d.size q)] }
  | some _ => none

/-- A pair of a key and a value. -/
def assign (d : Doc) (keys : List Key) (value : Nodes) : Option Doc :=
  d.descend enterDotted (put value) d.current keys

/-- A header ends the section before it. -/
def endSection (d : Doc) : Doc := { d with defined := d.defined ++ d.dotted, dotted := [] }

def header (d : Doc) (keys : List Key) : Option Doc := d.endSection.descend enterHeader define [] keys

def arrayHeader (d : Doc) (keys : List Key) : Option Doc :=
  d.endSection.descend enterHeader append [] keys

end Doc

/-! ## Characters -/

def isWs (c : Char) : Bool := c = ' ' || c = '\t'

/-- No control character but the tab. -/
def isText (c : Char) : Bool := c = '\t' || 0x20 ≤ c.toNat && c.toNat ≠ 0x7f

/-- A character that a basic string holds as it is. -/
def isPlain (c : Char) : Bool := isText c && c ≠ '"' && c ≠ '\\'

/-- The character belongs to a line break, given what follows it. -/
def isBreak (c : Char) (s : List Char) : Bool := c = '\n' || c = '\r' && s.head? = some '\n'

def isBare (c : Char) : Bool := c.isAlphanum || c = '_' || c = '-'

def newline : List Char → Option (List Char)
  | '\n' :: s => some s
  | '\r' :: '\n' :: s => some s
  | _ => none

def skipWs (s : List Char) : List Char := s.dropWhile isWs

def skipComment : List Char → List Char
  | '#' :: s => s.dropWhile isText
  | s => s

/-- Skips whitespace, line breaks and comments; the flag says that a comment has begun. -/
def skipLines : Bool → List Char → List Char
  | _, [] => []
  | comment, c :: s =>
    if isBreak c s then skipLines false s
    else if comment && isText c then skipLines true s
    else if !comment && isWs c then skipLines false s
    else if !comment && c = '#' then skipLines true s
    else c :: s

/-! ## Strings -/

abbrev Reader (α : Type) := List Char → Option (α × List Char)

def digit (base : ℕ) (c : Char) : Option ℕ :=
  let v :=
    if c.isDigit then c.toNat - '0'.toNat
    else if 'a' ≤ c && c ≤ 'f' then c.toNat - 'a'.toNat + 10
    else if 'A' ≤ c && c ≤ 'F' then c.toNat - 'A'.toNat + 10
    else base
  if v < base then some v else none

def shortEscape : Char → Option Char
  | 'b' => some '\x08'
  | 't' => some '\t'
  | 'n' => some '\n'
  | 'f' => some '\x0c'
  | 'r' => some '\r'
  | '"' => some '"'
  | '\\' => some '\\'
  | _ => none

/-- Where the reader of a string stands. -/
inductive Mode where
  /-- between characters; after a folded line, blanks are skipped -/
  | text (trim : Bool)
  | escaped
  /-- in an escape by digits: how many follow the next one, and the value of those before it -/
  | digits (left value : ℕ)
  /-- a backslash and blanks, with a line break to come -/
  | folding

/-- What a character of a string does: it may end the string, or else it leads on, with a
character of the value or without. -/
inductive Move where
  | fail
  | closed (rest : List Char × List Char)
  | go (mode : Mode) (out : Option Char)

/-- After a quote: whether it closes the string. Up to two quotes more are the string's own. -/
def closing (quote : Char) (multi : Bool) (s : List Char) : Option (List Char × List Char) :=
  if multi then
    if s.take 4 = List.replicate 4 quote then some (List.replicate 2 quote, s.drop 4)
    else if s.take 3 = List.replicate 3 quote then some (List.replicate 1 quote, s.drop 3)
    else if s.take 2 = List.replicate 2 quote then some ([], s.drop 2)
    else none
  else some ([], s)

/-- A string is on one line or on many, between quotes of either kind. -/
def move (quote : Char) (multi : Bool) (mode : Mode) (c : Char) (s : List Char) : Move :=
  match mode with
  | .text trim =>
    if trim && (isWs c || isBreak c s) then .go (.text true) none
    else if c = quote then
      match closing quote multi s with
      | some rest => .closed rest
      | none => .go (.text false) (some c)
    else if c = '\\' && quote = '"' then .go .escaped none
    else if isText c || multi && isBreak c s then .go (.text false) (some c)
    else .fail
  | .escaped =>
    match shortEscape c with
    | some d => .go (.text false) (some d)
    | none =>
      if c = 'u' then .go (.digits 3 0) none
      else if c = 'U' then .go (.digits 7 0) none
      else if multi && isWs c then .go .folding none
      else if multi && isBreak c s then .go (.text true) none
      else .fail
  | .digits left value =>
    match digit 16 c with
    | none => .fail
    | some d =>
      match left with
      | left + 1 => .go (.digits left (16 * value + d)) none
      | 0 =>
        if (16 * value + d).isValidChar then .go (.text false) (some (Char.ofNat (16 * value + d)))
        else .fail
  | .folding =>
    if isWs c then .go .folding none
    else if isBreak c s then .go (.text true) none
    else .fail

/-- The rest of a string. -/
def body (quote : Char) (multi : Bool) : Mode → Reader (List Char)
  | _, [] => none
  | mode, c :: s =>
    match move quote multi mode c s with
    | .fail => none
    | .closed rest => some rest
    | .go mode out => (body quote multi mode s).map fun x => (out.toList ++ x.1, x.2)

/-- After the first quote: three open a string of many lines, and a line break right after them
is not part of it. -/
def string (quote : Char) (s : List Char) : Option (List Char × List Char) :=
  if s.take 2 = List.replicate 2 quote then
    body quote true (.text false) ((newline (s.drop 2)).getD (s.drop 2))
  else body quote false (.text false) s

/-! ## Keys -/

def simpleKey : Reader Key
  | '"' :: s => body '"' false (.text false) s
  | '\'' :: s => body '\'' false (.text false) s
  | s => if (s.takeWhile isBare).isEmpty then none else some (s.takeWhile isBare, s.dropWhile isBare)

/-- One or more of what a reader reads, with separators between; where it is given what they stop
at, a separator may also stand before that. -/
def sepBy {α : Type} (read : Reader α) (skip : List Char → List Char) (sep : Char)
    (stop : Option Char) : ℕ → Reader (List α)
  | 0, _ => none
  | n + 1, s => do
    let (a, s) ← read s
    match skip s with
    | [] => some ([a], [])
    | c :: s =>
      if c = sep then
        if stop.isSome && (skip s).head? = stop then some ([a], skip s)
        else
          let (as, s) ← sepBy read skip sep stop n (skip s)
          some (a :: as, s)
      else some ([a], c :: s)

def dottedKey (s : List Char) : Option (List Key × List Char) :=
  sepBy simpleKey skipWs '.' none (s.length + 1) s

/-! ## Numbers and times -/

/-- Digits with single underscores between them; the flag says that the last one was a digit. -/
def number (base : ℕ) : Bool → ℕ → List Char → Option ℕ
  | last, v, [] => if last then some v else none
  | last, v, c :: s =>
    if c = '_' then if last then number base false v s else none
    else
      match digit base c with
      | some d => number base true (base * v + d) s
      | none => none

def decimal (s : List Char) : Option ℕ :=
  if 1 < s.length && s.head? = some '0' then none else number 10 false 0 s

def unsigned : List Char → List Char
  | '+' :: s => s
  | '-' :: s => s
  | s => s

/-- An integer of 64 bits. -/
def integer (s : List Char) : Option ℤ :=
  let n : Option ℤ :=
    match s with
    | '0' :: 'x' :: s => (number 16 false 0 s).map Int.ofNat
    | '0' :: 'o' :: s => (number 8 false 0 s).map Int.ofNat
    | '0' :: 'b' :: s => (number 2 false 0 s).map Int.ofNat
    | '-' :: s => (decimal s).map fun n => -Int.ofNat n
    | s => (decimal (unsigned s)).map Int.ofNat
  n.filter fun n => -2 ^ 63 ≤ n && n < 2 ^ 63

def isDecimalFloat (s : List Char) : Bool :=
  let mantissa := s.takeWhile fun c => c ≠ 'e' && c ≠ 'E'
  let exponent := s.dropWhile fun c => c ≠ 'e' && c ≠ 'E'
  let whole := mantissa.takeWhile (· ≠ '.')
  let fraction := mantissa.dropWhile (· ≠ '.')
  (decimal whole).isSome && !(fraction.isEmpty && exponent.isEmpty) &&
    (fraction.isEmpty || (number 10 false 0 fraction.tail).isSome) &&
    (exponent.isEmpty || (number 10 false 0 (unsigned exponent.tail)).isSome)

def isFloat (s : List Char) : Bool :=
  unsigned s = ['i', 'n', 'f'] || unsigned s = ['n', 'a', 'n'] || isDecimalFloat (unsigned s)

def inRange (lo hi : ℕ) (s : List Char) : Bool :=
  (s.mapM (digit 10)).any fun ds => lo ≤ Nat.ofDigits 10 ds.reverse && Nat.ofDigits 10 ds.reverse ≤ hi

def daysIn (year month : List Char) : ℕ :=
  let y := ((year.mapM (digit 10)).map fun ds => Nat.ofDigits 10 ds.reverse).getD 0
  if month = ['0', '2'] then if y % 4 = 0 && (y % 100 ≠ 0 || y % 400 = 0) then 29 else 28
  else if month ∈ [['0', '4'], ['0', '6'], ['0', '9'], ['1', '1']] then 30
  else 31

def isDate : List Char → Bool
  | [y, y', y'', y''', '-', m, m', '-', d, d'] =>
    inRange 0 9999 [y, y', y'', y'''] && inRange 1 12 [m, m'] &&
      inRange 1 (daysIn [y, y', y'', y'''] [m, m']) [d, d']
  | _ => false

def isOffset : List Char → Bool
  | [] => true
  | [c] => c = 'Z' || c = 'z'
  | [c, h, h', ':', m, m'] => (c = '+' || c = '-') && inRange 0 23 [h, h'] && inRange 0 59 [m, m']
  | _ => false

def isTime : List Char → Bool
  | h :: h' :: ':' :: m :: m' :: ':' :: s :: s' :: rest =>
    inRange 0 23 [h, h'] && inRange 0 59 [m, m'] && inRange 0 60 [s, s'] &&
      match rest with
      | '.' :: c :: rest => c.isDigit && isOffset (rest.dropWhile Char.isDigit)
      | rest => isOffset rest
  | _ => false

def isLocalTime (s : List Char) : Bool :=
  isTime s && s.all fun c => c.isDigit || c = ':' || c = '.'

def isDateTime (s : List Char) : Bool :=
  isDate (s.take 10) && ((s.drop 10).head? = some 'T' || (s.drop 10).head? = some 't') &&
    isTime (s.drop 11)

def isScalarChar (c : Char) : Bool := isBare c || c = '+' || c = '.' || c = ':'

def word (token : List Char) : Option Node :=
  if token = ['t', 'r', 'u', 'e'] then some (.boolean true)
  else if token = ['f', 'a', 'l', 's', 'e'] then some (.boolean false)
  else
    match integer token with
    | some n => some (.integer n)
    | none =>
      if isFloat token then some (.float token)
      else if isDate token || isDateTime token || isLocalTime token then some (.dateTime token)
      else none

/-- Between a date and a time a blank may stand. -/
def scalar (s : List Char) : Option (Node × List Char) :=
  let token := s.takeWhile isScalarChar
  let rest := s.dropWhile isScalarChar
  let time := rest.tail.takeWhile isScalarChar
  if isDate token && rest.head? = some ' ' && isTime time then
    some (.dateTime (token ++ ' ' :: time), rest.tail.dropWhile isScalarChar)
  else (word token).map fun n => (n, rest)

/-! ## Values and statements -/

def leaf (n : Node) : Nodes := [([], n)]

def keyval (read : Reader Nodes) (s : List Char) : Option ((List Key × Nodes) × List Char) := do
  let (keys, s) ← dottedKey s
  match skipWs s with
  | '=' :: s => do
    let (value, s) ← read (skipWs s)
    some ((keys, value), s)
  | _ => none

def itemNodes (values : List Nodes) : Nodes :=
  values.zipIdx.flatMap fun x => x.1.map fun e => (.item x.2 :: e.1, e.2)

/-- After the opening bracket. -/
def array (read : Reader Nodes) (s : List Char) : Option (Nodes × List Char) :=
  match skipLines false s with
  | ']' :: s => some (leaf .array, s)
  | s => do
    let (values, s) ← sepBy read (skipLines false) ',' (some ']') (s.length + 1) s
    match s with
    | ']' :: s => some (leaf .array ++ itemNodes values, s)
    | _ => none

/-- After the opening brace. -/
def inlineTable (read : Reader Nodes) (s : List Char) : Option (Nodes × List Char) :=
  match skipWs s with
  | '}' :: s => some (leaf .table, s)
  | s => do
    let (pairs, s) ← sepBy (keyval read) skipWs ',' none (s.length + 1) s
    match s with
    | '}' :: s => do
      let d ← pairs.foldlM (fun d pair => d.assign pair.1 pair.2) ({} : Doc)
      some (d.nodes, s)
    | _ => none

def value : ℕ → Reader Nodes
  | 0, _ => none
  | n + 1, s =>
    match s with
    | '"' :: s => (string '"' s).map fun x => (leaf (.string x.1), x.2)
    | '\'' :: s => (string '\'' s).map fun x => (leaf (.string x.1), x.2)
    | '[' :: s => array (value n) s
    | '{' :: s => inlineTable (value n) s
    | s => (scalar s).map fun x => (leaf x.1, x.2)

def statement (d : Doc) (s : List Char) : Option (Doc × List Char) :=
  match s with
  | '[' :: '[' :: s => do
    let (keys, s) ← dottedKey (skipWs s)
    match skipWs s with
    | ']' :: ']' :: s => (d.arrayHeader keys).map fun d => (d, s)
    | _ => none
  | '[' :: s => do
    let (keys, s) ← dottedKey (skipWs s)
    match skipWs s with
    | ']' :: s => (d.header keys).map fun d => (d, s)
    | _ => none
  | s => do
    let (pair, s) ← keyval (value (s.length + 1)) s
    (d.assign pair.1 pair.2).map fun d => (d, s)

/-- Nothing but a comment on the rest of the line. -/
def isBlank (s : List Char) : Bool :=
  s.isEmpty || s.head? = some '#' || (newline s).isSome

def line (d : Doc) (s : List Char) : Option (Doc × List Char) :=
  if isBlank (skipWs s) then some (d, skipWs s) else statement d (skipWs s)

def document : ℕ → Doc → List Char → Option Doc
  | 0, _, _ => none
  | n + 1, d, s => do
    let (d, s) ← line d s
    match skipComment (skipWs s) with
    | [] => some d
    | s => do
      let s ← newline s
      document n d s

def parse (s : List Char) : Option Nodes := (document (s.length + 1) {} s).map Doc.nodes

end AgentExchange.Library.Toml
