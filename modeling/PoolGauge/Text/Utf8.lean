/-!
# Decoding UTF-8

A machine over single bytes that tells characters from malformed sequences. The strict reading
stops at the first malformed sequence and says where it is; the lenient reading puts the
replacement character in its place.
-/
namespace PoolGauge.Text.Utf8

structure ByteRange where
  low : UInt8
  high : UInt8
deriving DecidableEq, Repr

def ByteRange.holds (range : ByteRange) (byte : UInt8) : Bool :=
  range.low ≤ byte && byte ≤ range.high

/-- The bytes that continue a character. -/
def tail : ByteRange := ⟨0x80, 0xBF⟩

/-- Where the machine stands: between characters, or inside one with the value so far, the bytes
read, and the ranges of the bytes still owed. -/
inductive State where
  | between
  | inside (value read : Nat) (next : ByteRange) (later : List ByteRange)
deriving DecidableEq, Repr

/-- What a byte brings to light. A malformed sequence is a start of a character that the next
byte cannot continue, or a byte that starts none; a truncated one ends with the input. -/
inductive Piece where
  | character (c : Char) (size : Nat)
  | malformed (size : Nat)
  | truncated
deriving DecidableEq, Repr

/-- The machine at a byte between characters. -/
def lead (byte : UInt8) : List Piece × State :=
  let n := byte.toNat
  if n < 0x80 then ([.character (Char.ofNat n) 1], .between)
  else if n < 0xC2 then ([.malformed 1], .between)
  else if n < 0xE0 then ([], .inside (n - 0xC0) 1 tail [])
  else if n = 0xE0 then ([], .inside 0 1 ⟨0xA0, 0xBF⟩ [tail])
  else if n = 0xED then ([], .inside 0xD 1 ⟨0x80, 0x9F⟩ [tail])
  else if n < 0xF0 then ([], .inside (n - 0xE0) 1 tail [tail])
  else if n = 0xF0 then ([], .inside 0 1 ⟨0x90, 0xBF⟩ [tail, tail])
  else if n < 0xF4 then ([], .inside (n - 0xF0) 1 tail [tail, tail])
  else if n = 0xF4 then ([], .inside 4 1 ⟨0x80, 0x8F⟩ [tail, tail])
  else ([.malformed 1], .between)

def step (state : State) (byte : UInt8) : List Piece × State :=
  match state with
  | .between => lead byte
  | .inside value read next later =>
    if next.holds byte then
      let value := value * 64 + (byte.toNat - 0x80)
      match later with
      | [] => ([.character (Char.ofNat value) (read + 1)], .between)
      | range :: rest => ([], .inside value (read + 1) range rest)
    else
      let (pieces, state) := lead byte
      (.malformed read :: pieces, state)

def pieces (bytes : List UInt8) : List Piece :=
  let (found, state) := bytes.foldl (fun (found, state) byte =>
    let (new, state) := step state byte
    (new.reverse ++ found, state)) ([], .between)
  match state with
  | .between => found.reverse
  | .inside .. => (Piece.truncated :: found).reverse

/-- Why bytes are not UTF-8: a malformed sequence of some size, or a truncated one, and the
number of bytes before it. -/
inductive Fault where
  | malformed (size index : Nat)
  | truncated (index : Nat)
deriving DecidableEq, Repr

def Fault.message : Fault → String
  | .malformed size index =>
    "invalid utf-8 sequence of " ++ size.repr ++ " bytes from index " ++ index.repr
  | .truncated index => "incomplete utf-8 byte sequence from index " ++ index.repr

/-- The characters of pieces, or the first fault. -/
def strict (index : Nat) (found : List Char) : List Piece → Except Fault (List Char)
  | [] => .ok found.reverse
  | .character c size :: rest => strict (index + size) (c :: found) rest
  | .malformed size :: _ => .error (.malformed size index)
  | .truncated :: _ => .error (.truncated index)

def decode (bytes : List UInt8) : Except Fault String :=
  (strict 0 [] (pieces bytes)).map String.ofList

/-- Decodes bytes with the replacement character for every malformed or truncated sequence. -/
def decodeLenient (bytes : List UInt8) : List Char :=
  (pieces bytes).map fun
    | .character c _ => c
    | _ => '\uFFFD'

end PoolGauge.Text.Utf8
