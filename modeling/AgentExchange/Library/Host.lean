import Mathlib

/-!
# Hosts of URLs

The host parser of the WHATWG URL standard for a URL with a special scheme: an IPv6 address in
brackets, and otherwise a domain, which is percent-decoded, mapped to ASCII, and read as an IPv4
address if its last label is a number. The mapping to ASCII rests on the Unicode tables and is a
parameter with the two properties the standard notes of it.
-/
namespace AgentExchange.Library.Whatwg

def isAscii (c : Char) : Bool := c.toNat < 128

def isUpper (c : Char) : Bool := 'A' ≤ c && c ≤ 'Z'

def lowerChar (c : Char) : Char := if isUpper c then Char.ofNat (c.toNat + 32) else c

def lower (cs : List Char) : List Char := cs.map lowerChar

def isDecimal (c : Char) : Bool := '0' ≤ c && c ≤ '9'

/-- The value of a hexadecimal digit. -/
def digitValue (c : Char) : Option ℕ :=
  if isDecimal c then some (c.toNat - 48)
  else if 'a' ≤ c && c ≤ 'f' then some (c.toNat - 87)
  else if 'A' ≤ c && c ≤ 'F' then some (c.toNat - 55)
  else none

def numeral (radix : ℕ) (digits : List Char) : Option ℕ :=
  digits.foldlM (fun n c => do
    let d ← digitValue c
    if d < radix then some (n * radix + d) else none) 0

/-! ## IPv4 -/

def ipv4Number (s : List Char) : Option ℕ :=
  match s with
  | [] => none
  | '0' :: 'x' :: digits => numeral 16 digits
  | '0' :: 'X' :: digits => numeral 16 digits
  | '0' :: d :: digits => numeral 8 (d :: digits)
  | digits => numeral 10 digits

/-- The labels of a domain, without the empty one after a dot at the end. -/
def labels (s : List Char) : List (List Char) :=
  let parts := s.splitOn '.'
  if parts.getLast? = some [] ∧ 1 < parts.length then parts.dropLast else parts

/-- The ends-in-a-number checker. -/
def endsInNumber (s : List Char) : Bool :=
  match (labels s).getLast? with
  | some last => (last ≠ [] && last.all isDecimal) || (ipv4Number last).isSome
  | none => false

def parseIpv4 (s : List Char) : Option ℕ := do
  let numbers ← (labels s).mapM ipv4Number
  if 4 < numbers.length then none
  let last ← numbers.getLast?
  if numbers.dropLast.any fun n => 255 < n then none
  if 256 ^ (5 - numbers.length) ≤ last then none
  some (last + (numbers.dropLast.zipIdx.map fun p => p.1 * 256 ^ (3 - p.2)).sum)

def addressBytes (n : ℕ) : List ℕ := [n / 256 ^ 3 % 256, n / 256 ^ 2 % 256, n / 256 % 256, n % 256]

def ipv4Text (n : ℕ) : List Char :=
  List.intercalate ['.'] ((addressBytes n).map fun byte => Nat.toDigits 10 byte)

/-! ## IPv6 -/

def hexPiece (s : List Char) : Option ℕ :=
  if 1 ≤ s.length ∧ s.length ≤ 4 then numeral 16 s else none

/-- A number of the dotted form that may end an IPv6 address. -/
def decimalByte (s : List Char) : Option ℕ :=
  if s = [] ∨ (1 < s.length ∧ s.head? = some '0') then none
  else (numeral 10 s).filter (· ≤ 255)

def dottedPieces (s : List Char) : Option (List ℕ) := do
  match ← (s.splitOn '.').mapM decimalByte with
  | [a, b, c, d] => some [a * 256 + b, c * 256 + d]
  | _ => none

/-- Pieces separated by colons, the last of which may be in dotted form. -/
def lastPieces : List (List Char) → Option (List ℕ)
  | [] => some []
  | [last] => ((hexPiece last).map fun n => [n]).orElse fun _ => dottedPieces last
  | piece :: rest => do
    let n ← hexPiece piece
    let ns ← lastPieces rest
    some (n :: ns)

/-- The text before and after the first `::`. -/
def splitCompressed : List Char → Option (List Char × List Char)
  | ':' :: ':' :: rest => some ([], rest)
  | c :: rest => (splitCompressed rest).map fun p => (c :: p.1, p.2)
  | [] => none

def sidePieces (read : List (List Char) → Option (List ℕ)) (s : List Char) : Option (List ℕ) :=
  if s = [] then some [] else read (s.splitOn ':')

/-- Zeros in the place of `::`, which stands for one piece at least. -/
def expand (left right : List ℕ) : Option (List ℕ) :=
  if left.length + right.length ≤ 7 then
    some (left ++ List.replicate (8 - (left.length + right.length)) 0 ++ right)
  else none

/-- The eight pieces of an address. -/
def parseIpv6 (s : List Char) : Option (List ℕ) :=
  match splitCompressed s with
  | none => (lastPieces (s.splitOn ':')).filter fun pieces => pieces.length = 8
  | some (before, after) => do
    let left ← sidePieces (List.mapM hexPiece) before
    let right ← sidePieces lastPieces after
    expand left right

def zeros (pieces : List ℕ) : ℕ := (pieces.takeWhile (· = 0)).length

/-- Where the first of the longest runs of zeros starts, if it has two of them. -/
def compressAt (pieces : List ℕ) : Option ℕ :=
  let longest := ((List.range pieces.length).map fun i => zeros (pieces.drop i)).foldl max 0
  if longest < 2 then none
  else (List.range pieces.length).find? fun i => zeros (pieces.drop i) = longest

def colonSeparated (pieces : List ℕ) : List Char :=
  List.intercalate [':'] (pieces.map fun n => Nat.toDigits 16 n)

def ipv6Text (pieces : List ℕ) : List Char :=
  match compressAt pieces with
  | some i => colonSeparated (pieces.take i) ++ ':' :: ':' ::
      colonSeparated (pieces.drop (i + zeros (pieces.drop i)))
  | none => colonSeparated pieces

/-! ## Domains -/

def hasAcePrefix (label : List Char) : Bool := ['x', 'n', '-', '-'].isPrefixOf (lower label)

/-- Unicode ToASCII with the flags of the standard. -/
structure DomainToAscii where
  toAscii : List Char → Option (List Char)
  /-- what comes out is ASCII in lower case -/
  ascii_lower : ∀ domain result, toAscii domain = some result →
    ∀ c ∈ result, isAscii c = true ∧ isUpper c = false
  /-- an ASCII domain without a label in Punycode is only put in lower case -/
  plain : ∀ domain, (∀ c ∈ domain, isAscii c = true) →
    (∀ label ∈ domain.splitOn '.', hasAcePrefix label = false) → toAscii domain = some (lower domain)

def isForbiddenHost (c : Char) : Bool :=
  c = '\x00' || c = '\t' || c = '\n' || c = '\r' || c = ' ' || c = '#' || c = '/' || c = ':' ||
    c = '<' || c = '>' || c = '?' || c = '@' || c = '[' || c = '\\' || c = ']' || c = '^' || c = '|'

def isForbiddenDomain (c : Char) : Bool :=
  isForbiddenHost c || c.toNat < 32 || c = '%' || c = '\x7f'

def hexByte (b : UInt8) : Option ℕ := digitValue (Char.ofNat b.toNat)

def percentDecode : List UInt8 → List UInt8
  | [] => []
  | [b] => [b]
  | [b, c] => [b, c]
  | b :: c :: d :: rest =>
    if b = 0x25 then
      match hexByte c, hexByte d with
      | some high, some low => .ofNat (high * 16 + low) :: percentDecode rest
      | _, _ => b :: percentDecode (c :: d :: rest)
    else b :: percentDecode (c :: d :: rest)

def utf8Encode (cs : List Char) : List UInt8 := cs.flatMap String.utf8EncodeChar

/-- Ill-formed bytes are read as U+FFFD, which ToASCII refuses. -/
def utf8Decode (bytes : List UInt8) : Option (List Char) :=
  (String.fromUTF8? ⟨bytes.toArray⟩).map String.toList

inductive Host where
  | domain (name : List Char)
  | ipv4 (address : ℕ)
  | ipv6 (pieces : List ℕ)
  deriving DecidableEq

/-- The host serializer. -/
def Host.text : Host → List Char
  | .domain name => name
  | .ipv4 address => ipv4Text address
  | .ipv6 pieces => '[' :: ipv6Text pieces ++ [']']

/-- What follows the mapping to ASCII. -/
def hostOfAscii (name : List Char) : Option Host :=
  if name = [] ∨ name.any isForbiddenDomain then none
  else if endsInNumber name then (parseIpv4 name).map .ipv4
  else some (.domain name)

/-- The host parser, for a host that is not opaque. -/
def parseHost (idna : DomainToAscii) (input : List Char) : Option Host :=
  if input.head? = some '[' then
    if input.getLast? = some ']' then (parseIpv6 (input.drop 1).dropLast).map .ipv6 else none
  else do
    let domain ← utf8Decode (percentDecode (utf8Encode input))
    let name ← idna.toAscii domain
    hostOfAscii name

/-! ## Lower case -/

/-- A character of the text of a domain or an IPv4 address. -/
def isDomainChar (c : Char) : Bool := isAscii c && !isForbiddenDomain c

theorem lowerChar_of_not_isUpper {c : Char} (h : isUpper c = false) : lowerChar c = c := by
  simp [lowerChar, h]

/-- What is true of the capital letters is true of every character that lower case changes. -/
theorem isUpper_induction {P : Char → Prop} (hall : ∀ n ≤ 90, 65 ≤ n → P (Char.ofNat n)) {c : Char}
    (h : isUpper c = true) : P c := by
  simp only [isUpper, Bool.and_eq_true, decide_eq_true_eq, Char.le_def, UInt32.le_iff_toNat_le] at h
  have hc := hall c.toNat h.2 h.1
  rwa [Char.ofNat_toNat] at hc

theorem lowerChar_lowerChar (c : Char) : lowerChar (lowerChar c) = lowerChar c := by
  cases h : isUpper c with
  | false => rw [lowerChar_of_not_isUpper h, lowerChar_of_not_isUpper h]
  | true =>
    exact isUpper_induction (P := fun c => lowerChar (lowerChar c) = lowerChar c) (by decide) h

theorem ascii_lowerChar {c : Char} (h : isAscii c = true) :
    isAscii (lowerChar c) = true ∧ isUpper (lowerChar c) = false := by
  cases hupper : isUpper c with
  | false =>
    rw [lowerChar_of_not_isUpper hupper]
    exact ⟨h, hupper⟩
  | true =>
    exact isUpper_induction
      (P := fun c => isAscii (lowerChar c) = true ∧ isUpper (lowerChar c) = false) (by decide) hupper

theorem isDomainChar_lowerChar (c : Char) : isDomainChar (lowerChar c) = isDomainChar c := by
  cases h : isUpper c with
  | false => rw [lowerChar_of_not_isUpper h]
  | true =>
    exact isUpper_induction (P := fun c => isDomainChar (lowerChar c) = isDomainChar c) (by decide) h

/-- Lower case makes no colon. -/
theorem lowerChar_eq_colon {c : Char} (h : lowerChar c = ':') : c = ':' := by
  cases hupper : isUpper c with
  | false => rwa [lowerChar_of_not_isUpper hupper] at h
  | true =>
    exact absurd h (isUpper_induction (P := fun c => lowerChar c ≠ ':') (by decide) hupper)

theorem lower_lower (cs : List Char) : lower (lower cs) = lower cs := by
  simp [lower, lowerChar_lowerChar]

theorem lower_eq_self {cs : List Char} (h : ∀ c ∈ cs, isUpper c = false) : lower cs = cs := by
  rw [lower, List.map_congr_left fun c hc => lowerChar_of_not_isUpper (h c hc), List.map_id']

/-! ## The text of a host -/

theorem isDecimal_of_mem_toDigits {n : ℕ} {c : Char} (hc : c ∈ Nat.toDigits 10 n) :
    isDecimal c = true := by
  have hdigit := Nat.isDigit_of_mem_toDigits (by decide) (by decide) hc
  simpa [isDecimal, Char.isDigit, Char.le_def] using hdigit

theorem ipv4Text_chars {n : ℕ} {c : Char} (hc : c ∈ ipv4Text n) :
    isDecimal c = true ∨ c = '.' := by
  simp only [ipv4Text, addressBytes, List.map_cons, List.map_nil, List.intercalate,
    List.intersperse, List.flatten_cons, List.flatten_nil, List.mem_append, List.mem_singleton,
    List.append_nil] at hc
  rcases hc with hc | rfl | hc | rfl | hc | rfl | hc
  all_goals first | exact Or.inr rfl | exact Or.inl (isDecimal_of_mem_toDigits hc)

theorem splitOn_ipv4Text (n : ℕ) :
    (ipv4Text n).splitOn '.' = (addressBytes n).map fun byte => Nat.toDigits 10 byte := by
  have hdot : ∀ label ∈ (addressBytes n).map fun byte => Nat.toDigits 10 byte, '.' ∉ label := by
    intro label hlabel hmem
    obtain ⟨byte, -, rfl⟩ := List.mem_map.mp hlabel
    cases isDecimal_of_mem_toDigits hmem
  exact List.splitOn_intercalate '.' hdot (by simp [addressBytes])

theorem labels_ipv4Text (n : ℕ) :
    labels (ipv4Text n) = (addressBytes n).map fun byte => Nat.toDigits 10 byte := by
  have hlast : ((addressBytes n).map fun byte => Nat.toDigits 10 byte).getLast? ≠ some [] := by
    simp [addressBytes]
  rw [labels, splitOn_ipv4Text]
  exact if_neg fun h => hlast h.1

theorem ipv4Number_toDigits {byte : ℕ} (h : byte < 256) :
    ipv4Number (Nat.toDigits 10 byte) = some byte := by
  have hall : ∀ byte < 256, ipv4Number (Nat.toDigits 10 byte) = some byte := by decide +kernel
  exact hall byte h

theorem decimalByte_toDigits {byte : ℕ} (h : byte < 256) :
    decimalByte (Nat.toDigits 10 byte) = some byte := by
  have hall : ∀ byte < 256, decimalByte (Nat.toDigits 10 byte) = some byte := by decide +kernel
  exact hall byte h

/-- A reader of single bytes reads a list of them. -/
theorem mapM_toDigits {read : List Char → Option ℕ}
    (hread : ∀ {byte}, byte < 256 → read (Nat.toDigits 10 byte) = some byte) {bytes : List ℕ}
    (h : ∀ byte ∈ bytes, byte < 256) :
    (bytes.map fun byte => Nat.toDigits 10 byte).mapM read = some bytes := by
  induction bytes with
  | nil => rfl
  | cons byte rest ih =>
    simp [List.mapM_cons, hread (h byte List.mem_cons_self),
      ih fun byte hbyte => h byte (List.mem_cons_of_mem _ hbyte)]

theorem lt_of_mem_addressBytes {n byte : ℕ} (h : byte ∈ addressBytes n) : byte < 256 := by
  simp only [addressBytes, List.mem_cons, List.not_mem_nil, or_false] at h
  omega

/-- The form an address is written in is read as that address. -/
theorem parseIpv4_ipv4Text (n : ℕ) : parseIpv4 (ipv4Text n) = some (n % 256 ^ 4) := by
  have hbytes : ((addressBytes n).map fun byte => Nat.toDigits 10 byte).mapM ipv4Number =
      some (addressBytes n) := mapM_toDigits ipv4Number_toDigits fun byte => lt_of_mem_addressBytes
  have hsmall : ((addressBytes n).dropLast.any fun byte => 255 < byte) = false := by
    apply List.any_eq_false.mpr
    intro byte hbyte
    have := lt_of_mem_addressBytes (List.mem_of_mem_dropLast hbyte)
    simp only [decide_eq_true_eq]
    omega
  have hlast : ¬256 ^ (5 - (addressBytes n).length) ≤ n % 256 := by
    have : 256 ^ (5 - (addressBytes n).length) = 256 := rfl
    omega
  have hsum : n % 256 + ((addressBytes n).dropLast.zipIdx.map fun p => p.1 * 256 ^ (3 - p.2)).sum =
      n % 256 ^ 4 := by
    have : ((addressBytes n).dropLast.zipIdx.map fun p => p.1 * 256 ^ (3 - p.2)).sum =
      n / 256 ^ 3 % 256 * 256 ^ 3 + (n / 256 ^ 2 % 256 * 256 ^ 2 + n / 256 % 256 * 256) := by
      simp [addressBytes]
    omega
  rw [parseIpv4, labels_ipv4Text, hbytes]
  simp only [Option.bind_eq_bind, Option.bind_some, hsmall]
  have : (addressBytes n).getLast? = some (n % 256) := rfl
  simp only [this, Option.bind_some, if_neg hlast, hsum]
  rfl
theorem ipv4Text_mod (n : ℕ) : ipv4Text (n % 256 ^ 4) = ipv4Text n := by
  have hbytes : addressBytes (n % 256 ^ 4) = addressBytes n := by
    simp only [addressBytes, List.cons.injEq, and_true]
    omega
  rw [ipv4Text, hbytes, ipv4Text]

theorem parseIpv6_length {s : List Char} {pieces : List ℕ} (h : parseIpv6 s = some pieces) :
    pieces.length = 8 := by
  unfold parseIpv6 at h
  split at h
  · simpa using (Option.filter_eq_some_iff.mp h).2
  · simp only [Option.bind_eq_bind, Option.bind_eq_some_iff] at h
    obtain ⟨left, -, right, -, hpieces⟩ := h
    unfold expand at hpieces
    split_ifs at hpieces with hlength
    cases hpieces
    simp only [List.length_append, List.length_replicate]
    omega

theorem colon_mem_ipv6Text {pieces : List ℕ} (h : pieces.length = 8) : ':' ∈ ipv6Text pieces := by
  unfold ipv6Text
  split
  · simp
  · obtain ⟨a, pieces, rfl⟩ := List.exists_cons_of_length_pos (l := pieces) (by omega)
    obtain ⟨b, pieces, rfl⟩ :=
      List.exists_cons_of_length_pos (l := pieces) (by simp only [List.length_cons] at h; omega)
    simp [colonSeparated, List.intercalate]

theorem isDomainChar_of_isDecimal {c : Char} (h : isDecimal c = true) : isDomainChar c = true := by
  have hall : ∀ n < 58, isDecimal (Char.ofNat n) = true → isDomainChar (Char.ofNat n) = true := by
    decide
  have hlt : c.toNat < 58 := by
    simp only [isDecimal, Bool.and_eq_true, decide_eq_true_eq, Char.le_def,
      UInt32.le_iff_toNat_le] at h
    exact Nat.lt_succ_of_le h.2
  have hc := hall c.toNat hlt
  rw [Char.ofNat_toNat] at hc
  exact hc h

theorem isUpper_of_isDecimal {c : Char} (h : isDecimal c = true) : isUpper c = false := by
  by_contra hupper
  rw [isUpper_induction (P := fun c => isDecimal c = false) (by decide)
    (eq_true_of_ne_false hupper)] at h
  cases h

theorem hostOfAscii_text {name : List Char} {host : Host} (h : hostOfAscii name = some host)
    (hname : ∀ c ∈ name, isAscii c = true) : ∀ c ∈ host.text, isDomainChar c = true := by
  unfold hostOfAscii at h
  split_ifs at h with hbad
  · obtain ⟨n, -, rfl⟩ := Option.map_eq_some_iff.mp h
    intro c hc
    rcases ipv4Text_chars hc with hdecimal | rfl
    · exact isDomainChar_of_isDecimal hdecimal
    · rfl
  · cases h
    intro c hc
    have hallowed : isForbiddenDomain c = false :=
      eq_false_of_ne_true fun hc' => hbad (Or.inr (List.any_eq_true.mpr ⟨c, hc, hc'⟩))
    simp [isDomainChar, hname c hc, hallowed]

/-- A host is of one kind or other by its text: an IPv6 address has a colon. -/
theorem parseHost_text {idna : DomainToAscii} {input : List Char} {host : Host}
    (h : parseHost idna input = some host) :
    (∀ c ∈ host.text, isDomainChar c = true) ∨ ':' ∈ host.text := by
  unfold parseHost at h
  split_ifs at h with hopen hclose
  · obtain ⟨pieces, hpieces, rfl⟩ := Option.map_eq_some_iff.mp h
    right
    simp [Host.text, colon_mem_ipv6Text (parseIpv6_length hpieces)]
  · simp only [Option.bind_eq_bind, Option.bind_eq_some_iff] at h
    obtain ⟨domain, -, name, hname, hhost⟩ := h
    exact Or.inl (hostOfAscii_text hhost fun c hc => (idna.ascii_lower domain name hname c hc).1)

/-! ## Plain domains -/

variable {idna : DomainToAscii}

theorem percentDecode_of_not_mem {bytes : List UInt8} (h : 0x25 ∉ bytes) :
    percentDecode bytes = bytes := by
  induction bytes using percentDecode.induct with
  | case1 => rfl
  | case2 b => rfl
  | case3 b c => rfl
  | case4 c d rest high low hc hd ih => simp at h
  | case5 c d rest hnone ih => simp at h
  | case6 b c d rest hb ih =>
    rw [percentDecode, if_neg hb, ih fun hmem => h (List.mem_cons_of_mem _ hmem)]

theorem utf8Decode_utf8Encode (cs : List Char) : utf8Decode (utf8Encode cs) = some cs := by
  have hbytes : (⟨(utf8Encode cs).toArray⟩ : ByteArray) = (String.ofList cs).toByteArray := by
    apply ByteArray.ext
    simp [utf8Encode, List.utf8Encode]
  have hread : String.fromUTF8? (String.ofList cs).toByteArray = some (String.ofList cs) :=
    dif_pos (String.ofList cs).isValidUTF8
  rw [utf8Decode, hbytes, hread, Option.map_some, String.toList_ofList]

theorem percent_not_mem_utf8Encode {cs : List Char} (h : ∀ c ∈ cs, isDomainChar c = true) :
    (0x25 : UInt8) ∉ utf8Encode cs := by
  intro hmem
  obtain ⟨c, hc, hbyte⟩ := List.mem_flatMap.mp hmem
  obtain ⟨hascii, hallowed⟩ := Bool.and_eq_true_iff.mp (h c hc)
  have hlt : c.toNat < 128 := by simpa [isAscii] using hascii
  have hsize : c.utf8Size = 1 := by
    rw [Char.utf8Size_eq_one_iff]
    exact UInt32.le_iff_toNat_le.mpr (Nat.le_of_lt_succ hlt)
  rw [String.utf8EncodeChar_eq_singleton hsize, List.mem_singleton] at hbyte
  have hpercent : c = '%' := by
    have hval := congrArg UInt8.toNat hbyte
    apply Char.toNat_inj.mp
    have : c.val.toUInt8.toNat = c.toNat % 256 := rfl
    rw [this] at hval
    have : (0x25 : UInt8).toNat = 37 := rfl
    change c.toNat = 37
    omega
  rw [hpercent] at hallowed
  cases hallowed

/-- Without an escape and a bracket, the domain is mapped to ASCII as it is. -/
theorem parseHost_plain {input : List Char}
    (h : ∀ c ∈ input, isDomainChar c = true) :
    parseHost idna input = (idna.toAscii input).bind hostOfAscii := by
  have hopen : input.head? ≠ some '[' := by
    intro hhead
    have hbracket := h '[' (List.mem_of_mem_head? hhead)
    cases hbracket
  rw [parseHost, if_neg hopen, percentDecode_of_not_mem (percent_not_mem_utf8Encode h),
    utf8Decode_utf8Encode]
  rfl

/-- The text of a host and another text are the same up to case. -/
def Host.Names (host : Host) (text : List Char) : Prop := lower host.text = lower text

theorem mem_of_mem_splitOn {α : Type} [BEq α] [LawfulBEq α] {sep x : α} {xs piece : List α}
    (hpiece : piece ∈ xs.splitOn sep) (hx : x ∈ piece) : x ∈ xs := by
  induction xs generalizing piece with
  | nil =>
    rw [List.splitOn_nil, List.mem_singleton] at hpiece
    rw [hpiece] at hx
    cases hx
  | cons y xs ih =>
    rw [List.splitOn_cons_eq_if_modifyHead] at hpiece
    split_ifs at hpiece
    · rcases List.mem_cons.mp hpiece with rfl | hpiece
      · cases hx
      · exact List.mem_cons_of_mem _ (ih hpiece hx)
    · obtain ⟨first, rest, hsplit⟩ := List.exists_cons_of_ne_nil (List.splitOn_ne_nil sep xs)
      rw [hsplit, List.modifyHead_cons] at hpiece
      rw [hsplit] at ih
      rcases List.mem_cons.mp hpiece with rfl | hpiece
      · rcases List.mem_cons.mp hx with rfl | hx
        · exact List.mem_cons_self
        · exact List.mem_cons_of_mem _ (ih List.mem_cons_self hx)
      · exact List.mem_cons_of_mem _ (ih (List.mem_cons_of_mem _ hpiece) hx)

theorem x_mem_of_hasAcePrefix {label : List Char} (h : hasAcePrefix label = true) :
    'x' ∈ lower label :=
  (List.isPrefixOf_iff_prefix.mp h).subset List.mem_cons_self

/-- A host has no characters but those of domains, a colon apart. -/
theorem isDomainChar_of_names {input text : List Char} {host : Host}
    (h : parseHost idna input = some host) (hnames : host.Names text) (hcolon : ':' ∉ text) :
    ∀ c ∈ text, isDomainChar c = true := by
  rcases parseHost_text h with hchars | hmem
  · intro c hc
    have hlower : lowerChar c ∈ lower host.text := by
      rw [hnames]
      exact List.mem_map_of_mem hc
    obtain ⟨d, hd, hdc⟩ := List.mem_map.mp hlower
    rw [← isDomainChar_lowerChar, ← hdc, isDomainChar_lowerChar]
    exact hchars d hd
  · have hlower : lowerChar ':' ∈ lower text := by
      rw [← hnames]
      exact List.mem_map_of_mem hmem
    obtain ⟨c, hc, hcolon'⟩ := List.mem_map.mp hlower
    rw [lowerChar_eq_colon hcolon'] at hc
    exact absurd hc hcolon

/-- The mapping keeps the labels in Punycode, and a domain that ends in a number is an address in
the form addresses are written in, four bytes without leading zeros. -/
structure PlainDomain (idna : DomainToAscii) (domain : List Char) : Prop where
  chars : ∀ c ∈ domain, isDomainChar c = true
  punycode : (∃ label ∈ domain.splitOn '.', hasAcePrefix label = true) →
    idna.toAscii domain = some (lower domain)
  address : endsInNumber (lower domain) = true → ∃ n, lower domain = ipv4Text n

theorem PlainDomain.toAscii {domain : List Char} (h : PlainDomain idna domain) :
    idna.toAscii domain = some (lower domain) := by
  by_cases hace : ∃ label ∈ domain.splitOn '.', hasAcePrefix label = true
  · exact h.punycode hace
  · apply idna.plain domain fun c hc => (Bool.and_eq_true_iff.mp (h.chars c hc)).1
    intro label hlabel
    exact eq_false_of_ne_true fun htrue => hace ⟨label, hlabel, htrue⟩

theorem PlainDomain.names {domain : List Char} (h : PlainDomain idna domain) (hne : domain ≠ []) :
    ∃ host, parseHost idna domain = some host ∧ host.Names domain := by
  have hname : lower domain ≠ [] := by simpa [lower] using hne
  have hallowed : (lower domain).any isForbiddenDomain = false := by
    apply List.any_eq_false.mpr
    intro c hc
    obtain ⟨d, hd, rfl⟩ := List.mem_map.mp hc
    have hchar := h.chars d hd
    rw [← isDomainChar_lowerChar] at hchar
    simpa using (Bool.and_eq_true_iff.mp hchar).2
  rw [parseHost_plain h.chars, h.toAscii, Option.bind_some, hostOfAscii,
    if_neg (by simp [hname, hallowed])]
  split_ifs with hnumber
  · obtain ⟨n, hn⟩ := h.address hnumber
    refine ⟨.ipv4 (n % 256 ^ 4), by rw [hn, parseIpv4_ipv4Text, Option.map_some], ?_⟩
    rw [Host.Names, Host.text, ipv4Text_mod, ← hn, lower_lower]
  · exact ⟨.domain (lower domain), rfl, lower_lower domain⟩

/-- A host that is named like the domain it was read from. -/
theorem plainDomain_of_names {domain : List Char} {host : Host}
    (hchars : ∀ c ∈ domain, isDomainChar c = true) (h : parseHost idna domain = some host)
    (hnames : host.Names domain) : PlainDomain idna domain := by
  rw [parseHost_plain hchars] at h
  obtain ⟨name, hname, hhost⟩ := Option.bind_eq_some_iff.mp h
  have hlower : lower name = name :=
    lower_eq_self fun c hc => (idna.ascii_lower domain name hname c hc).2
  unfold hostOfAscii at hhost
  split_ifs at hhost with hbad hnumber
  · obtain ⟨n, -, rfl⟩ := Option.map_eq_some_iff.mp hhost
    have htext : ipv4Text n = lower domain := by
      rw [← hnames, Host.text, lower_eq_self]
      intro c hc
      rcases ipv4Text_chars hc with hdecimal | rfl
      · exact isUpper_of_isDecimal hdecimal
      · rfl
    have hlabels : ∀ label ∈ domain.splitOn '.', hasAcePrefix label = false := by
      intro label hlabel
      by_contra hace
      obtain ⟨c, hc, hx⟩ := List.mem_map.mp (x_mem_of_hasAcePrefix (eq_true_of_ne_false hace))
      have hmem : 'x' ∈ ipv4Text n := by
        rw [htext, ← hx]
        exact List.mem_map_of_mem (mem_of_mem_splitOn hlabel hc)
      rcases ipv4Text_chars hmem with h | h <;> cases h
    have hplain := idna.plain domain (fun c hc => (Bool.and_eq_true_iff.mp (hchars c hc)).1) hlabels
    obtain rfl := Option.some_inj.mp (hname.symm.trans hplain)
    exact ⟨hchars, fun _ => hplain, fun _ => ⟨n, htext.symm⟩⟩
  · cases hhost
    rw [Host.Names, Host.text, hlower] at hnames
    subst hnames
    exact ⟨hchars, fun _ => hname, fun h => absurd h hnumber⟩

end AgentExchange.Library.Whatwg
