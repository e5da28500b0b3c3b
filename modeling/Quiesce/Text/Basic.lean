set_option autoImplicit false

namespace Quiesce.Text

namespace Replace

variable {α : Type} [DecidableEq α]

def occurs (pattern : List α) : List α → Bool
  | [] => pattern.isEmpty
  | c :: rest => pattern.isPrefixOf (c :: rest) || occurs pattern rest

/-- `left` elements of an occurrence already replaced are still to be passed over. -/
def scan (pattern replacement : List α) (left : Nat) : List α → List α
  | [] => []
  | c :: rest =>
    match left with
    | n + 1 => scan pattern replacement n rest
    | 0 =>
      if pattern.isPrefixOf (c :: rest) then
        replacement ++ scan pattern replacement (pattern.length - 1) rest
      else c :: scan pattern replacement 0 rest

def all (pattern replacement s : List α) : List α :=
  if pattern.isEmpty then s else scan pattern replacement 0 s

theorem scan_drop (pattern replacement : List α) (left : Nat) (s : List α) :
    scan pattern replacement left s = scan pattern replacement 0 (s.drop left) := by
  induction s generalizing left with
  | nil => simp [scan]
  | cons c rest ih =>
    cases left with
    | zero => rfl
    | succ n =>
      rw [scan, List.drop_succ_cons]
      exact ih n

end Replace

def replaceAll (text pattern replacement : String) : String :=
  String.ofList (Replace.all pattern.toList replacement.toList text.toList)

namespace Form

def isKept (b : UInt8) : Bool :=
  (0x30 ≤ b && b ≤ 0x39) || (0x41 ≤ b && b ≤ 0x5a) || (0x61 ≤ b && b ≤ 0x7a) ||
    b == 0x2a || b == 0x2d || b == 0x2e || b == 0x5f

def hexDigit (n : Nat) : Char :=
  if n < 10 then Char.ofNat (0x30 + n) else Char.ofNat (0x41 + (n - 10))

def encodeByte (b : UInt8) : List Char :=
  if isKept b then [Char.ofNat b.toNat]
  else if b == 0x20 then ['+']
  else ['%', hexDigit (b.toNat / 16), hexDigit (b.toNat % 16)]

def encode (bytes : List UInt8) : List Char := bytes.flatMap encodeByte

theorem encode_append (xs ys : List UInt8) : encode (xs ++ ys) = encode xs ++ encode ys :=
  List.flatMap_append

end Form

def utf8 (s : List Char) : List UInt8 := s.flatMap String.utf8EncodeChar

def formEncode (value : String) : String := String.ofList (Form.encode (utf8 value.toList))

def offset? {α : Type} [DecidableEq α] (pattern : List α) : List α → Option Nat
  | [] => if pattern.isEmpty then some 0 else none
  | c :: rest =>
    if pattern.isPrefixOf (c :: rest) then some 0 else (offset? pattern rest).map (· + 1)

def isBoundary (bytes : List UInt8) (i : Nat) : Bool :=
  i == 0 || i == bytes.length || bytes[i]?.any fun b => decide b.IsUTF8FirstByte

def upTo? (bytes : List UInt8) (i : Nat) : Option (List UInt8) :=
  if isBoundary bytes i then some (bytes.take i) else none

def onwards? (bytes : List UInt8) (i : Nat) : Option (List UInt8) :=
  if isBoundary bytes i then some (bytes.drop i) else none

/-- What has been put out when a turn begins, and what is left. -/
structure Sweep where
  out : List UInt8
  rest : List UInt8
deriving DecidableEq, Repr

namespace Sweep

inductive Turn where
  | goesOn (next : Sweep)
  | done (result : List UInt8)
  | refused
deriving DecidableEq, Repr

def start (text : List UInt8) : Sweep := ⟨[], text⟩

def turn (pattern replacement : List UInt8) (w : Sweep) : Turn :=
  match offset? pattern w.rest with
  | none => .done (w.out ++ w.rest)
  | some i =>
    match upTo? w.rest i, onwards? w.rest (i + pattern.length) with
    | some before, some after => .goesOn ⟨w.out ++ before ++ replacement, after⟩
    | _, _ => .refused

end Sweep

namespace Join

def chars (separator : Char) : List (List Char) → List Char
  | [] => []
  | [x] => x
  | x :: y :: rest => x ++ separator :: chars separator (y :: rest)

def split (separator : Char) : List Char → List (List Char)
  | [] => [[]]
  | c :: rest =>
    if c = separator then [] :: split separator rest
    else match split separator rest with
      | [] => [[c]]
      | piece :: pieces => (c :: piece) :: pieces

end Join

def join (items : List (Option String)) (separator : Char) : String :=
  String.ofList (Join.chars separator (items.map fun i => (i.getD "").toList))

def firstPresent {α : Type} (items : List (Option α)) : Option α := items.findSome? id

def nameAlphabet : List Char := "abcdefghijklmnopqrstuvwxyz0123456789".toList

variable {γ : Type} [RandomGen γ]

def randomLetter (source : γ) : Char × γ :=
  let (i, source) := randNat source 0 (nameAlphabet.length - 1)
  (nameAlphabet.getD i 'a', source)

def randomName (source : γ) : Nat → List Char × γ
  | 0 => ([], source)
  | n + 1 =>
    let (c, source) := randomLetter source
    let (rest, source) := randomName source n
    (c :: rest, source)

/-- What is drawn to follow `start` so that both have `length` bytes, if `start` is shorter. -/
def randomTail (source : γ) (start : String) (length : Nat) : List Char × γ :=
  randomName source (length - start.utf8ByteSize)

theorem length_randomName (source : γ) (n : Nat) : (randomName source n).1.length = n := by
  induction n generalizing source with
  | zero => rfl
  | succ n ih => simp [randomName, ih]

end Quiesce.Text
