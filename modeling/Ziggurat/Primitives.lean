import Mathlib

/-! # Byte cursors and the payload primitives

The payload codecs of `protocol::payload` write into a `Vec<u8>` and read from a
`Cursor<&[u8]>`.  Writing into a vector cannot fail, so an encoder is modelled by
the bytes it appends.  A cursor is modelled by the bytes it has not read yet, and
a decoder by a state transformer over them (`Decoder`): a read takes bytes off
the front, and a failed decode drops the cursor, which no caller reads again.

A decode ends without a value in one of three ways (`Failure`): with an
`io::Error`, with a panic of the calling thread, or with the whole process
aborted.  The payload code reaches the second through `unreachable!()` and
`Vec::with_capacity`, and the third when the allocator refuses what
`Vec::with_capacity` asks of it (`Inv`).

`read_n_bytes`, `VarInt` and `Hash` live in `protocol/payload/mod.rs`, which
the sources do not include.  They are modelled from the specification (§3 and
§4.1): a short read fails with `UnexpectedEof`, integers are little-endian, a
`VarInt` is one byte below `0xFD` or a flag `0xFD`, `0xFE`, `0xFF` followed by
a `u16`, `u32` or `u64`, written in its shortest form and read in any, and a
`Hash` is 32 bytes.
-/
namespace Ziggurat

/-! ## Decoders -/

/-- The `io::ErrorKind`s the payload decoders return. -/
inductive ErrorKind where
  | unexpectedEof
  | invalidData
  deriving DecidableEq, Repr

/-- What makes a decoding thread panic. -/
inductive Panic where
  /-- An `unreachable!()` was executed. -/
  | unreachable
  /-- `Vec::with_capacity` was asked for more than `isize::MAX` bytes. -/
  | capacityOverflow
  deriving DecidableEq, Repr

/-- How a decode ends without a value. -/
inductive Failure where
  | error (kind : ErrorKind)
  | panic (cause : Panic)
  /-- The allocator refused a request, and `handle_alloc_error` aborted the
  process. -/
  | abort
  deriving DecidableEq, Repr

/-- A decoder over a `Cursor<&[u8]>`, the cursor being the bytes not read yet. -/
abbrev Decoder (α : Type) := StateT (List UInt8) (Except Failure) α

namespace Decoder
variable {α β : Type} {x : Decoder α} {f : α → Decoder β} {cursor cursor' : List UInt8}

theorem run_bind_ok {a : α} (h : x.run cursor = .ok (a, cursor')) :
    (x >>= f).run cursor = (f a).run cursor' := by
  simp only [StateT.run_bind, h]; rfl

theorem run_bind_error {e : Failure} (h : x.run cursor = .error e) :
    (x >>= f).run cursor = .error e := by
  simp only [StateT.run_bind, h]; rfl

@[simp] theorem run_pure (a : α) (cursor : List UInt8) :
    (pure a : Decoder α).run cursor = .ok (a, cursor) := rfl

@[simp] theorem run_throw (e : Failure) (cursor : List UInt8) :
    (throw e : Decoder α).run cursor = .error e := rfl

/-- A bind fails only where one of its two halves does. -/
theorem error_of_run_bind {e : Failure} (h : (x >>= f).run cursor = .error e) :
    x.run cursor = .error e ∨ ∃ a c, x.run cursor = .ok (a, c) ∧ (f a).run c = .error e := by
  cases hx : x.run cursor with
  | error e' => rw [run_bind_error hx] at h; exact .inl (congrArg _ (Except.error.inj h))
  | ok p =>
    obtain ⟨a, c⟩ := p
    exact .inr ⟨a, c, rfl, by rwa [run_bind_ok hx] at h⟩

/-- A bind succeeds only where both of its halves do. -/
theorem ok_of_run_bind {b : β} (h : (x >>= f).run cursor = .ok (b, cursor')) :
    ∃ a c, x.run cursor = .ok (a, c) ∧ (f a).run c = .ok (b, cursor') := by
  cases hx : x.run cursor with
  | error e => rw [run_bind_error hx] at h; cases h
  | ok p =>
    obtain ⟨a, c⟩ := p
    exact ⟨a, c, rfl, by rwa [run_bind_ok hx] at h⟩

theorem ok_of_run_pure {a b : α} (h : (pure a : Decoder α).run cursor = .ok (b, cursor')) :
    a = b ∧ cursor = cursor' :=
  Prod.mk.inj_iff.mp (Except.ok.inj h)

theorem run_bind_congr {y : Decoder α} {cursor₂ : List UInt8}
    (h : x.run cursor = y.run cursor₂) : (x >>= f).run cursor = (y >>= f).run cursor₂ := by
  simp only [StateT.run_bind, h]

end Decoder

/-! ## Fixed-width reads and little-endian integers -/

/-- Modelled from the spec: `read_n_bytes::<N>`, which fills an `[u8; N]` by
`read_exact` and fails with `UnexpectedEof` when fewer than `N` bytes remain. -/
def readNBytes (n : Nat) : Decoder (Mathlib.Vector UInt8 n) := fun cursor =>
  if h : n ≤ cursor.length then .ok (⟨cursor.take n, List.length_take_of_le h⟩, cursor.drop n)
  else .error (.error .unexpectedEof)

theorem readNBytes_run_append (n : Nat) (bytes rest : List UInt8) (h : bytes.length = n) :
    (readNBytes n).run (bytes ++ rest) = .ok (⟨bytes, h⟩, rest) := by
  have hle : n ≤ (bytes ++ rest).length := by simp [h]
  simp only [StateT.run, readNBytes, dif_pos hle, List.take_left' h, List.drop_left' h]

theorem readNBytes_run_short {n : Nat} {cursor : List UInt8} (h : cursor.length < n) :
    (readNBytes n).run cursor = .error (.error .unexpectedEof) := by
  simp only [StateT.run, readNBytes, dif_neg (Nat.not_le.mpr h)]

/-- `read_n_bytes` fails only at the end of the input. -/
theorem readNBytes_error {n : Nat} {cursor : List UInt8} {e : Failure}
    (h : (readNBytes n).run cursor = .error e) : e = .error .unexpectedEof := by
  simp only [StateT.run, readNBytes] at h
  split at h
  · cases h
  · exact (Except.error.inj h).symm

/-- `read_n_bytes` takes its bytes off the front of the input. -/
theorem readNBytes_ok {n : Nat} {cursor cursor' : List UInt8} {bytes : Mathlib.Vector UInt8 n}
    (h : (readNBytes n).run cursor = .ok (bytes, cursor')) : cursor = bytes.toList ++ cursor' := by
  simp only [StateT.run, readNBytes] at h
  split at h
  · obtain ⟨rfl, rfl⟩ := Prod.mk.inj_iff.mp (Except.ok.inj h)
    exact (List.take_append_drop n cursor).symm
  · cases h

/-- Modelled from the spec: `uN::to_le_bytes`, least significant byte first. -/
def leBytes : Nat → Nat → List UInt8
  | 0, _ => []
  | width + 1, value => UInt8.ofNat (value % 256) :: leBytes width (value / 256)

/-- Modelled from the spec: `uN::from_le_bytes`. -/
def ofLeBytes (bytes : List UInt8) : Nat :=
  bytes.foldr (fun byte acc => byte.toNat + 256 * acc) 0

@[simp] theorem length_leBytes (width value : Nat) : (leBytes width value).length = width := by
  induction width generalizing value with
  | zero => rfl
  | succ width ih => simp [leBytes, ih]

theorem ofLeBytes_leBytes {width value : Nat} (h : value < 256 ^ width) :
    ofLeBytes (leBytes width value) = value := by
  induction width generalizing value with
  | zero => simp_all [leBytes, ofLeBytes]
  | succ width ih =>
    have hdiv : value / 256 < 256 ^ width := by
      rw [Nat.div_lt_iff_lt_mul (by decide), ← Nat.pow_succ]; exact h
    have hlow : (UInt8.ofNat (value % 256)).toNat = value % 256 :=
      UInt8.toNat_ofNat_of_lt (Nat.mod_lt _ (by decide))
    have hhigh := ih hdiv
    simp only [ofLeBytes, leBytes, List.foldr_cons] at hhigh ⊢
    rw [hhigh, hlow]; omega

/-- Bytes read as a little-endian integer are that integer's bytes. -/
theorem leBytes_ofLeBytes (bytes : List UInt8) : leBytes bytes.length (ofLeBytes bytes) = bytes := by
  induction bytes with
  | nil => rfl
  | cons b bs ih =>
    have hb : b.toNat < 256 := b.toNat_lt_size
    show leBytes (bs.length + 1) (b.toNat + 256 * ofLeBytes bs) = b :: bs
    rw [leBytes, show (b.toNat + 256 * ofLeBytes bs) % 256 = b.toNat by omega,
      show (b.toNat + 256 * ofLeBytes bs) / 256 = ofLeBytes bs by omega, ih]
    congr 1
    apply UInt8.toNat.inj
    simp [UInt8.toNat_ofNat_of_lt hb]

/-- `uN::from_le_bytes(read_n_bytes(bytes)?)` for an integer of `width` bytes. -/
def readLe (width : Nat) : Decoder Nat := do
  let bytes ← readNBytes width
  pure (ofLeBytes bytes.toList)

theorem readLe_run_leBytes (width value : Nat) (h : value < 256 ^ width) (rest : List UInt8) :
    (readLe width).run (leBytes width value ++ rest) = .ok (value, rest) := by
  rw [readLe, Decoder.run_bind_ok (readNBytes_run_append _ _ rest (length_leBytes _ _)),
    Decoder.run_pure, Mathlib.Vector.toList_mk, ofLeBytes_leBytes h]

theorem readLe_run_cons (byte : UInt8) (rest : List UInt8) :
    (readLe 1).run (byte :: rest) = .ok (byte.toNat, rest) := by
  rw [readLe, ← List.singleton_append,
    Decoder.run_bind_ok (readNBytes_run_append 1 [byte] rest rfl)]
  simp [ofLeBytes]; rfl

theorem readLe_error {width : Nat} {cursor : List UInt8} {e : Failure}
    (h : (readLe width).run cursor = .error e) : e = .error .unexpectedEof := by
  rcases Decoder.error_of_run_bind h with h | ⟨_, _, _, h⟩
  · exact readNBytes_error h
  · cases h

theorem readLe_run_append {width : Nat} (bytes rest : List UInt8) (h : bytes.length = width) :
    (readLe width).run (bytes ++ rest) = .ok (ofLeBytes bytes, rest) := by
  rw [readLe, Decoder.run_bind_ok (readNBytes_run_append _ bytes rest h)]; rfl

/-- A little-endian read takes `width` bytes off the front of the input. -/
theorem readLe_ok {width value : Nat} {cursor cursor' : List UInt8}
    (h : (readLe width).run cursor = .ok (value, cursor')) :
    ∃ bytes : List UInt8, bytes.length = width ∧ value = ofLeBytes bytes ∧
      cursor = bytes ++ cursor' := by
  obtain ⟨bytes, c, hread, hpure⟩ := Decoder.ok_of_run_bind h
  obtain ⟨rfl, rfl⟩ := Decoder.ok_of_run_pure hpure
  exact ⟨bytes.toList, bytes.2, rfl, readNBytes_ok hread⟩

/-- What a little-endian read accepts is the value's own bytes. -/
theorem readLe_ok_leBytes {width value : Nat} {cursor cursor' : List UInt8}
    (h : (readLe width).run cursor = .ok (value, cursor')) : cursor = leBytes width value ++ cursor' := by
  obtain ⟨bytes, rfl, rfl, rfl⟩ := readLe_ok h
  rw [leBytes_ofLeBytes]

/-! ## `VarInt` -/

/-- Modelled from the spec: `VarInt`, a `usize` count on a 64-bit target. -/
structure VarInt where
  val : Nat
  isLt : val < 2 ^ 64
  deriving DecidableEq, Repr

namespace VarInt

/-- `as usize`: the low 64 bits of a decoded integer. -/
def ofNat (n : Nat) : VarInt := ⟨n % 2 ^ 64, Nat.mod_lt _ (Nat.two_pow_pos 64)⟩

@[simp] theorem ofNat_val (v : VarInt) : ofNat v.val = v := by
  cases v
  simp only [ofNat, mk.injEq]
  exact Nat.mod_eq_of_lt ‹_›

/-- Modelled from the spec: the canonical encoding, the shortest of the four
forms that holds the value. -/
def encode (v : VarInt) : List UInt8 :=
  if v.val < 0xFD then leBytes 1 v.val
  else if v.val ≤ 0xFFFF then 0xFD :: leBytes 2 v.val
  else if v.val ≤ 0xFFFFFFFF then 0xFE :: leBytes 4 v.val
  else 0xFF :: leBytes 8 v.val

/-- Modelled from the spec: the value a flag byte announces, the flag itself
below `0xFD`, else a little-endian `u16`, `u32` or `u64` for `0xFD`, `0xFE`,
`0xFF`. -/
def readValue (flag : Nat) : Decoder Nat :=
  if flag < 0xFD then pure flag
  else if flag = 0xFD then readLe 2
  else if flag = 0xFE then readLe 4
  else readLe 8

/-- Modelled from the spec: a flag byte, then the value it announces.
Non-canonical forms are accepted. -/
def decode : Decoder VarInt := do
  let flag ← readLe 1
  let value ← readValue flag
  pure (ofNat value)

theorem readValue_error {flag : Nat} {cursor : List UInt8} {e : Failure}
    (h : (readValue flag).run cursor = .error e) : e = .error .unexpectedEof := by
  unfold readValue at h
  split_ifs at h
  · cases h
  all_goals exact readLe_error h

/-- A flagged form: the flag byte, then the value in the width it announces. -/
private theorem decode_run_flagged (v : VarInt) (flag : UInt8) (width : Nat) (rest : List UInt8)
    (hv : v.val < 256 ^ width) (hflag : readValue flag.toNat = readLe width) :
    decode.run ((flag :: leBytes width v.val) ++ rest) = .ok (v, rest) := by
  rw [List.cons_append, decode, Decoder.run_bind_ok (readLe_run_cons _ _), hflag,
    Decoder.run_bind_ok (readLe_run_leBytes width _ hv rest), Decoder.run_pure, ofNat_val]

/-- **Round trip**: the canonical form of every count is read back, and the
bytes after it are left unread. -/
theorem decode_encode (v : VarInt) (rest : List UInt8) :
    decode.run (v.encode ++ rest) = .ok (v, rest) := by
  have hv := v.isLt
  unfold encode
  split_ifs with h₁ h₂ h₃
  · rw [decode, Decoder.run_bind_ok (readLe_run_leBytes 1 _ (by omega) rest), readValue,
      if_pos h₁, Decoder.run_bind_ok (Decoder.run_pure _ _), Decoder.run_pure, ofNat_val]
  · exact decode_run_flagged v 0xFD 2 rest (by omega) rfl
  · exact decode_run_flagged v 0xFE 4 rest (by omega) rfl
  · exact decode_run_flagged v 0xFF 8 rest (by omega) rfl

/-- A `VarInt` fails to decode only at the end of the input. -/
theorem decode_error {cursor : List UInt8} {e : Failure} (h : decode.run cursor = .error e) :
    e = .error .unexpectedEof := by
  rcases Decoder.error_of_run_bind h with h | ⟨_, _, _, h⟩
  · exact readLe_error h
  rcases Decoder.error_of_run_bind h with h | ⟨_, _, _, h⟩
  · exact readValue_error h
  · cases h

theorem readValue_ok {flag value : Nat} {cursor cursor' : List UInt8}
    (h : (readValue flag).run cursor = .ok (value, cursor')) :
    ∃ pre, cursor = pre ++ cursor' ∧ ∀ xs, (readValue flag).run (pre ++ xs) = .ok (value, xs) := by
  unfold readValue at h ⊢
  split_ifs at h ⊢
  · obtain ⟨rfl, rfl⟩ := Decoder.ok_of_run_pure h
    exact ⟨[], rfl, fun _ => rfl⟩
  all_goals
    obtain ⟨bytes, hlen, rfl, rfl⟩ := readLe_ok h
    exact ⟨bytes, rfl, fun xs => readLe_run_append bytes xs hlen⟩

/-- **What `VarInt::decode` accepts is a form of its value**: a prefix of the
input, canonical or not, that it reads the same whatever follows. -/
theorem decode_ok {v : VarInt} {cursor cursor' : List UInt8} (h : decode.run cursor = .ok (v, cursor')) :
    ∃ pre, cursor = pre ++ cursor' ∧ ∀ xs, decode.run (pre ++ xs) = .ok (v, xs) := by
  obtain ⟨flag, c₁, h₁, h₂⟩ := Decoder.ok_of_run_bind h
  obtain ⟨value, c₂, h₃, h₄⟩ := Decoder.ok_of_run_bind h₂
  obtain ⟨rfl, rfl⟩ := Decoder.ok_of_run_pure h₄
  obtain ⟨flagBytes, hlen, rfl, rfl⟩ := readLe_ok h₁
  obtain ⟨valueBytes, rfl, hvalue⟩ := readValue_ok h₃
  refine ⟨flagBytes ++ valueBytes, (List.append_assoc _ _ _).symm, fun xs => ?_⟩
  rw [List.append_assoc, decode, Decoder.run_bind_ok (readLe_run_append flagBytes _ hlen),
    Decoder.run_bind_ok (hvalue xs)]
  rfl

end VarInt

/-! ## `Hash` -/

/-- Modelled from the spec: `Hash`, exactly 32 bytes, compared byte-wise. -/
structure Hash where
  bytes : Mathlib.Vector UInt8 32
  deriving DecidableEq

namespace Hash

/-- The all-zero hash, the "stop" sentinel. -/
def zeroed : Hash := ⟨Mathlib.Vector.replicate 32 0⟩

def encode (h : Hash) : List UInt8 := h.bytes.toList

def decode : Decoder Hash := do
  let bytes ← readNBytes 32
  pure ⟨bytes⟩

@[simp] theorem length_encode (h : Hash) : h.encode.length = 32 := h.bytes.2

theorem decode_encode (h : Hash) (rest : List UInt8) :
    decode.run (h.encode ++ rest) = .ok (h, rest) := by
  rw [decode, Decoder.run_bind_ok (readNBytes_run_append 32 _ rest h.length_encode)]
  rfl

theorem decode_error {cursor : List UInt8} {e : Failure} (h : decode.run cursor = .error e) :
    e = .error .unexpectedEof := by
  rcases Decoder.error_of_run_bind h with h | ⟨_, _, _, h⟩
  · exact readNBytes_error h
  · cases h

/-- What `Hash::decode` accepts is the hash's own 32 bytes. -/
theorem decode_ok {h : Hash} {cursor cursor' : List UInt8} (hd : decode.run cursor = .ok (h, cursor')) :
    cursor = h.encode ++ cursor' := by
  obtain ⟨bytes, c, h₁, h₂⟩ := Decoder.ok_of_run_bind hd
  obtain ⟨rfl, rfl⟩ := Decoder.ok_of_run_pure h₂
  exact readNBytes_ok h₁

end Hash

end Ziggurat
