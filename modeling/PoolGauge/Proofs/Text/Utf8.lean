import PoolGauge.Proofs.Text.ByteOrder
import PoolGauge.Text.Utf8
/-!
# What bytes are UTF-8

The machine finds nothing but characters in bytes that spell characters one after the other, and in
no others. So bytes are decoded exactly if they are the bytes of a text, and to this text.
-/
namespace PoolGauge.Text.Utf8

variable {byte : UInt8} {after bytes : List UInt8} {c : Char}

theorem holds_iff {range : ByteRange} : range.holds byte = true ↔
    range.low.toNat ≤ byte.toNat ∧ byte.toNat ≤ range.high.toNat := by
  simp [ByteRange.holds, UInt8.le_iff_toNat_le]

theorem holds_tail : tail.holds byte = true ↔ 0x80 ≤ byte.toNat ∧ byte.toNat ≤ 0xBF :=
  holds_iff

/-- What the machine makes of a byte between characters, by the number of bytes it calls for. -/
inductive Lead (byte : UInt8) : List Piece × State → Prop
  | one (h : byte.toNat < 0x80) :
      Lead byte ([.character (Char.ofNat byte.toNat) 1], .between)
  | two {value : Nat} (h : byte.toNat = value + 0xC0) (h' : 2 ≤ value ∧ value < 0x20) :
      Lead byte ([], .inside value 1 tail [])
  | three {value : Nat} {next : ByteRange} (h : byte.toNat = value + 0xE0) (h' : value < 0x10)
      (hnext : ∀ b : UInt8, next.holds b = true ↔ (0x80 ≤ b.toNat ∧ b.toNat ≤ 0xBF) ∧
        (value = 0 → 0xA0 ≤ b.toNat) ∧ (value = 0xD → b.toNat ≤ 0x9F)) :
      Lead byte ([], .inside value 1 next [tail])
  | four {value : Nat} {next : ByteRange} (h : byte.toNat = value + 0xF0) (h' : value ≤ 4)
      (hnext : ∀ b : UInt8, next.holds b = true ↔ (0x80 ≤ b.toNat ∧ b.toNat ≤ 0xBF) ∧
        (value = 0 → 0x90 ≤ b.toNat) ∧ (value = 4 → b.toNat ≤ 0x8F)) :
      Lead byte ([], .inside value 1 next [tail, tail])
  | none (h : 0x80 ≤ byte.toNat) (h' : byte.toNat < 0xC2 ∨ 0xF5 ≤ byte.toNat) :
      Lead byte ([.malformed 1], .between)

theorem lead_lead (byte : UInt8) : Lead byte (lead byte) := by
  unfold lead
  extract_lets n
  split_ifs with h1 h2 h3 h4 h5 h6 h7 h8 h9
  · exact .one h1
  · exact .none (by omega) (by omega)
  · exact .two (by omega) (by omega)
  · exact .three (by omega) (by omega) fun b => by
      simp [holds_iff]
      omega
  · exact .three (by omega) (by omega) fun b => by
      simp [holds_iff]
      omega
  · exact .three (by omega) (by omega) fun b => by
      rw [holds_tail]
      omega
  · exact .four (by omega) (by omega) fun b => by
      simp [holds_iff]
      omega
  · exact .four (by omega) (by omega) fun b => by
      rw [holds_tail]
      omega
  · exact .four (by omega) (by omega) fun b => by
      simp [holds_iff]
      omega
  · exact .none (by omega) (by omega)

theorem toNat_val_ofNat {n : Nat} (h : n.isValidChar) : (Char.ofNat n).val.toNat = n := by
  rw [Char.ofNat, dif_pos h]
  rfl

def Fits : List ByteRange → List UInt8 → Prop :=
  List.Forall₂ fun range byte => range.holds byte = true

/-- The value of a character when the bytes that continue it have been read. -/
def valueAfter (value : Nat) (after : List UInt8) : Nat :=
  after.foldl (fun value byte => value * 64 + (byte.toNat - 0x80)) value

/-- The bytes of a character: one that is a character by itself, or one that begins it and others
in the ranges that follow. -/
inductive Spells : List UInt8 → Char → Prop
  | single {byte : UInt8} {c : Char} (h : lead byte = ([.character c 1], .between)) :
      Spells [byte] c
  | several {byte : UInt8} {value : Nat} {next : ByteRange} {later : List ByteRange}
      {after : List UInt8} (h : lead byte = ([], .inside value 1 next later))
      (hfits : Fits (next :: later) after) :
      Spells (byte :: after) (Char.ofNat (valueAfter value after))

theorem encode_ofNat {n : Nat} (h : n.isValidChar) : String.utf8EncodeChar (Char.ofNat n) =
    if n ≤ 0x7F then [.ofNat n]
    else if n ≤ 0x7FF then [.ofNat (n / 64 % 32 + 0xC0), .ofNat (n % 64 + 0x80)]
    else if n ≤ 0xFFFF then
      [.ofNat (n / 4096 % 16 + 0xE0), .ofNat (n / 64 % 64 + 0x80), .ofNat (n % 64 + 0x80)]
    else
      [.ofNat (n / 262144 % 8 + 0xF0), .ofNat (n / 4096 % 64 + 0x80), .ofNat (n / 64 % 64 + 0x80),
        .ofNat (n % 64 + 0x80)] := by
  rw [String.utf8EncodeChar, toNat_val_ofNat h]

theorem Spells.eq_encode (h : Spells bytes c) : bytes = String.utf8EncodeChar c := by
  cases h with
  | @single byte c h =>
    have hlead := lead_lead byte
    rw [h] at hlead
    cases hlead with
    | one hbyte =>
      have hvalid : byte.toNat.isValidChar := .inl (by omega)
      rw [encode_ofNat hvalid, if_pos (by omega), UInt8.ofNat_toNat]
  | @several byte value next later after h hfits =>
    have hlead := lead_lead byte
    rw [h] at hlead
    cases hlead with
    | two hbyte hvalue =>
      obtain _ | ⟨ha, _ | _⟩ := hfits
      rename_i a
      rw [holds_tail] at ha
      have hafter : valueAfter value [a] = value * 64 + (a.toNat - 0x80) := rfl
      rw [hafter, encode_ofNat (.inl (by omega)), if_neg (by omega), if_pos (by omega)]
      simp only [List.cons.injEq, and_true, ← UInt8.toNat_inj, UInt8.toNat_ofNat']
      omega
    | three hbyte hvalue hnext =>
      obtain _ | ⟨ha, _ | ⟨hb, _ | _⟩⟩ := hfits
      rename_i a b
      rw [hnext] at ha
      rw [holds_tail] at hb
      have hafter : valueAfter value [a, b] =
          (value * 64 + (a.toNat - 0x80)) * 64 + (b.toNat - 0x80) := rfl
      rw [hafter, encode_ofNat (by unfold Nat.isValidChar; omega), if_neg (by omega),
        if_neg (by omega), if_pos (by omega)]
      simp only [List.cons.injEq, and_true, ← UInt8.toNat_inj, UInt8.toNat_ofNat']
      omega
    | four hbyte hvalue hnext =>
      obtain _ | ⟨ha, _ | ⟨hb, _ | ⟨hc, _ | _⟩⟩⟩ := hfits
      rename_i a b c
      rw [hnext] at ha
      rw [holds_tail] at hb hc
      have hafter : valueAfter value [a, b, c] = ((value * 64 + (a.toNat - 0x80)) * 64 +
          (b.toNat - 0x80)) * 64 + (c.toNat - 0x80) := rfl
      rw [hafter, encode_ofNat (by unfold Nat.isValidChar; omega), if_neg (by omega),
        if_neg (by omega), if_neg (by omega)]
      simp only [List.cons.injEq, and_true, ← UInt8.toNat_inj, UInt8.toNat_ofNat']
      omega

theorem spells_encode (c : Char) : Spells (String.utf8EncodeChar c) c := by
  have hvalid : c.val.toNat < 0xD800 ∨ 0xDFFF < c.val.toNat ∧ c.val.toNat < 0x110000 := c.valid
  have hof : ∀ {n : Nat}, n = c.val.toNat → Char.ofNat n = c := by
    rintro _ rfl
    exact Char.ofNat_toNat c
  have hbyte : ∀ {n : Nat}, n < 256 → (UInt8.ofNat n).toNat = n :=
    fun h => UInt8.toNat_ofNat_of_lt' h
  have htail : ∀ n, n < 0x40 → tail.holds (.ofNat (n + 0x80)) = true := by
    intro n hn
    rw [holds_tail, hbyte (by omega)]
    omega
  unfold String.utf8EncodeChar
  generalize c.val.toNat = v at *
  extract_lets n
  split_ifs with h1 h2 h3
  · have hlead := lead_lead (.ofNat v)
    have hfirst := hbyte (n := v) (by omega)
    generalize hl : lead (.ofNat v) = l at hlead
    cases hlead with
    | one h => exact .single (by rw [hl, hof hfirst])
    | two | three | four | none => omega
  · have hlead := lead_lead (.ofNat (v / 64 % 32 + 0xC0))
    have hfirst := hbyte (n := v / 64 % 32 + 0xC0) (by omega)
    have hsecond := hbyte (n := v % 64 + 0x80) (by omega)
    generalize hl : lead (.ofNat (v / 64 % 32 + 0xC0)) = l at hlead
    cases hlead with
    | two h h' =>
      have hfits : Fits [tail] [.ofNat (v % 64 + 0x80)] :=
        .cons (htail (v % 64) (by omega)) .nil
      have hspells := Spells.several hl hfits
      rwa [hof (by simp only [valueAfter, List.foldl_cons, List.foldl_nil]; omega)] at hspells
    | one | three | four | none => omega
  · have hlead := lead_lead (.ofNat (v / 4096 % 16 + 0xE0))
    have hfirst := hbyte (n := v / 4096 % 16 + 0xE0) (by omega)
    have hsecond := hbyte (n := v / 64 % 64 + 0x80) (by omega)
    have hthird := hbyte (n := v % 64 + 0x80) (by omega)
    generalize hl : lead (.ofNat (v / 4096 % 16 + 0xE0)) = l at hlead
    cases hlead with
    | three h h' hnext =>
      have hspells := Spells.several hl
        (.cons ((hnext (.ofNat (v / 64 % 64 + 0x80))).mpr (by omega))
          (.cons (htail (v % 64) (by omega)) .nil))
      rwa [hof (by simp only [valueAfter, List.foldl_cons, List.foldl_nil]; omega)] at hspells
    | one | two | four | none => omega
  · have hlead := lead_lead (.ofNat (v / 262144 % 8 + 0xF0))
    have hfirst := hbyte (n := v / 262144 % 8 + 0xF0) (by omega)
    have hsecond := hbyte (n := v / 4096 % 64 + 0x80) (by omega)
    have hthird := hbyte (n := v / 64 % 64 + 0x80) (by omega)
    have hfourth := hbyte (n := v % 64 + 0x80) (by omega)
    generalize hl : lead (.ofNat (v / 262144 % 8 + 0xF0)) = l at hlead
    cases hlead with
    | four h h' hnext =>
      have hspells := Spells.several hl
        (.cons ((hnext (.ofNat (v / 4096 % 64 + 0x80))).mpr (by omega))
          (.cons (htail (v / 64 % 64) (by omega))
            (.cons (htail (v % 64) (by omega)) .nil)))
      rwa [hof (by simp only [valueAfter, List.foldl_cons, List.foldl_nil]; omega)] at hspells
    | one | two | three | none => omega

section Machine

def scan : State → List UInt8 → List Piece
  | .between, [] => []
  | .inside .., [] => [.truncated]
  | state, byte :: rest => (step state byte).1 ++ scan (step state byte).2 rest

def Piece.char? : Piece → Option Char
  | .character c _ => some c
  | _ => none

variable {state : State} {value read : Nat} {next : ByteRange} {later : List ByteRange}
  {pieces : List Piece} {chars found : List Char}

theorem scan_cons (state : State) (byte : UInt8) (rest : List UInt8) :
    scan state (byte :: rest) = (step state byte).1 ++ scan (step state byte).2 rest := by
  cases state <;> rfl

theorem pieces_eq_scan (bytes : List UInt8) : Utf8.pieces bytes = scan .between bytes := by
  let advance (scanned : List Piece × State) (byte : UInt8) : List Piece × State :=
    ((step scanned.2 byte).1.reverse ++ scanned.1, (step scanned.2 byte).2)
  have hall : ∀ (bytes : List UInt8) (found : List Piece) (state : State),
      (bytes.foldl advance (found, state)).1.reverse ++
        scan (bytes.foldl advance (found, state)).2 [] = found.reverse ++ scan state bytes := by
    intro bytes
    induction bytes with
    | nil => exact fun _ _ => rfl
    | cons byte rest ih =>
      intro found state
      rw [List.foldl_cons, ih, scan_cons, List.reverse_append, List.reverse_reverse,
        List.append_assoc]
  have hbytes := hall bytes [] .between
  rw [List.reverse_nil, List.nil_append] at hbytes
  rw [← hbytes, Utf8.pieces]
  generalize bytes.foldl advance ([], .between) = scanned
  obtain ⟨found, state⟩ := scanned
  cases state <;> simp [scan]

theorem none_cons_ne {rest : List (Option Char)} : none :: rest ≠ chars.map some := by
  cases chars <;> simp

/-- All pieces are characters if the text is taken. -/
theorem strict_eq_ok_iff {index : Nat} : strict index found pieces = .ok chars ↔
    ∃ more, pieces.map Piece.char? = more.map some ∧ chars = found.reverse ++ more := by
  induction pieces generalizing index found with
  | nil =>
    rw [strict, Except.ok.injEq]
    constructor
    · rintro rfl
      exact ⟨[], rfl, (List.append_nil _).symm⟩
    · rintro ⟨more, hmore, rfl⟩
      rw [List.map_eq_nil_iff.mp hmore.symm, List.append_nil]
  | cons piece rest ih =>
    cases piece with
    | character c size =>
      rw [strict, ih]
      constructor
      · rintro ⟨more, hmore, rfl⟩
        exact ⟨c :: more, by simp [Piece.char?, hmore], by simp⟩
      · rintro ⟨more, hmore, rfl⟩
        obtain ⟨_, more, rfl, ⟨⟩, hrest⟩ := List.map_eq_cons_iff.mp hmore.symm
        exact ⟨more, hrest.symm, by simp⟩
    | malformed | truncated =>
      simp only [strict, reduceCtorEq, false_iff, not_exists, not_and]
      exact fun more hmore => absurd hmore none_cons_ne

/-- Bytes in the ranges owed end the character. -/
theorem scan_inside_append {after rest : List UInt8} (h : Fits (next :: later) after) :
    scan (.inside value read next later) (after ++ rest) =
      .character (Char.ofNat (valueAfter value after)) (read + after.length) ::
        scan .between rest := by
  induction later generalizing value read next after with
  | nil =>
    obtain _ | ⟨hbyte, _ | _⟩ := h
    rename_i byte
    rw [List.singleton_append, scan_cons, step, if_pos hbyte]
    rfl
  | cons range later ih =>
    obtain _ | ⟨hbyte, hafter⟩ := h
    rename_i byte after
    rw [List.cons_append, scan_cons, step, if_pos hbyte]
    simp only [List.nil_append]
    rw [ih hafter, valueAfter, valueAfter, List.foldl_cons, List.length_cons, Nat.add_assoc read,
      Nat.add_comm 1]

/-- If all that follows are characters, then first come bytes in the ranges owed. -/
theorem exists_fits_of_scan_inside {bytes : List UInt8}
    (h : (scan (.inside value read next later) bytes).map Piece.char? = chars.map some) :
    ∃ after rest, bytes = after ++ rest ∧ Fits (next :: later) after := by
  induction bytes generalizing value read next later chars with
  | nil =>
    rw [scan] at h
    exact absurd h none_cons_ne
  | cons byte rest ih =>
    rw [scan_cons, step] at h
    split at h
    · rename_i hbyte
      cases later with
      | nil => exact ⟨[byte], rest, rfl, .cons hbyte .nil⟩
      | cons range later =>
        obtain ⟨after, rest, rfl, hafter⟩ := ih h
        exact ⟨byte :: after, rest, rfl, .cons hbyte hafter⟩
    · exact absurd h none_cons_ne

theorem Spells.scan_append (h : Spells bytes c) (rest : List UInt8) :
    ∃ size, scan .between (bytes ++ rest) = .character c size :: scan .between rest := by
  cases h with
  | @single byte c h => exact ⟨1, by rw [List.singleton_append, scan_cons, step, h]; rfl⟩
  | @several byte value next later after h hfits =>
    refine ⟨1 + after.length, ?_⟩
    rw [List.cons_append, scan_cons, step, h]
    exact scan_inside_append hfits

theorem scan_encode_append (chars : List Char) (rest : List UInt8) :
    (scan .between (chars.flatMap String.utf8EncodeChar ++ rest)).map Piece.char? =
      chars.map some ++ (scan .between rest).map Piece.char? := by
  induction chars with
  | nil => rfl
  | cons c chars ih =>
    obtain ⟨size, hscan⟩ :=
      (spells_encode c).scan_append (chars.flatMap String.utf8EncodeChar ++ rest)
    rw [List.flatMap_cons, List.append_assoc, hscan, List.map_cons, ih]
    rfl

theorem scan_encode (chars : List Char) :
    (scan .between (chars.flatMap String.utf8EncodeChar)).map Piece.char? = chars.map some := by
  simpa [scan] using scan_encode_append chars []

/-- If bytes between characters are all characters, the first of them is spelt at the beginning. -/
theorem exists_spells_of_scan {rest : List UInt8}
    (h : (scan .between (byte :: rest)).map Piece.char? = chars.map some) :
    ∃ first others c, byte :: rest = first ++ others ∧ Spells first c := by
  have hlead := lead_lead byte
  rw [scan_cons, step] at h
  cases hstep : lead byte with
  | mk new state =>
    rw [hstep] at hlead h
    cases hlead with
    | one hbyte => exact ⟨[byte], rest, _, rfl, .single hstep⟩
    | two | three | four =>
      obtain ⟨after, others, rfl, hfits⟩ := exists_fits_of_scan_inside h
      exact ⟨byte :: after, others, _, rfl, .several hstep hfits⟩
    | none => exact absurd h none_cons_ne

theorem eq_encode_of_scan (chars : List Char)
    (h : (scan .between bytes).map Piece.char? = chars.map some) :
    bytes = chars.flatMap String.utf8EncodeChar := by
  induction chars generalizing bytes with
  | nil =>
    cases bytes with
    | nil => rfl
    | cons byte rest =>
      obtain ⟨first, others, c, heq, hspells⟩ := exists_spells_of_scan h
      obtain ⟨size, hscan⟩ := hspells.scan_append others
      rw [heq, hscan] at h
      cases h
  | cons d more ih =>
    cases bytes with
    | nil => cases h
    | cons byte rest =>
      obtain ⟨first, others, c, heq, hspells⟩ := exists_spells_of_scan h
      obtain ⟨size, hscan⟩ := hspells.scan_append others
      rw [heq, hscan, List.map_cons, List.map_cons] at h
      obtain ⟨hfirst, hothers⟩ := List.cons.inj h
      obtain rfl : c = d := Option.some.inj hfirst
      rw [heq, ih hothers, hspells.eq_encode, List.flatMap_cons]

end Machine

/-- Bytes that begin those of a text, and are those of a text, are those of its beginning. -/
theorem toList_prefix_of_bytes {text whole : String} (h : Text.bytes text <+: Text.bytes whole) :
    text.toList <+: whole.toList := by
  obtain ⟨rest, hrest⟩ := h
  rw [Text.bytes_eq, Text.bytes_eq] at hrest
  have hscan := scan_encode_append text.toList rest
  rw [hrest, scan_encode] at hscan
  obtain ⟨beginning, hprefix, heq⟩ := List.prefix_map_iff.mp ⟨_, hscan.symm⟩
  rwa [(List.map_inj_right fun _ _ => Option.some.inj).mp heq]

/-- Bytes are decoded to a text exactly if they are the bytes of this text. -/
theorem decode_eq_ok_iff {bytes : List UInt8} {text : String} :
    decode bytes = .ok text ↔ bytes = Text.bytes text := by
  have hdecode : decode bytes = .ok text ↔ strict 0 [] (Utf8.pieces bytes) = .ok text.toList := by
    rw [decode]
    cases strict 0 [] (Utf8.pieces bytes) with
    | error fault => simp [Except.map]
    | ok chars => simp [Except.map, String.ext_iff]
  rw [hdecode, strict_eq_ok_iff, pieces_eq_scan, Text.bytes_eq]
  constructor
  · rintro ⟨more, hmore, heq⟩
    rw [heq]
    exact eq_encode_of_scan more hmore
  · rintro rfl
    exact ⟨text.toList, scan_encode _, rfl⟩

end PoolGauge.Text.Utf8
