import Ziggurat.Primitives

/-! # The `inv` payload

`protocol/payload/inv.rs`.  An `Inv` is a `VarInt` count followed by that many
`InvHash` records, each a little-endian `u32` object kind and a 32-byte hash:
36 bytes a record.  `Inv::decode` reads the count, reserves a vector of that
capacity, and reads the records one at a time.  The reservation is a request to
the allocator, whose answer is an argument of the model (`Inv.decodeWith`);
`Inv.decode` is the decoder on an allocator that serves every request.

Three things here are about every input, not only well-formed ones.  First, the
codec round-trips every inventory whose count is its length, for every suffix
left after it (`Inv.decode_encode_append`).  Second, the converse: what the
decoder accepts is a form of the count, canonical or not, followed by exactly
the encodings of the records it returns (`Inv.decode_accepted_form`).  Third,
the decoder's way of failing, on every allocator:
it never returns `InvalidData`; it returns `UnexpectedEof`, or it panics, at the
first record whose kind is above 3 (`unreachable!()` in `ObjectKind::decode`)
or before reading any record when the declared count needs more than
`isize::MAX` bytes (`Vec::with_capacity`), or, before reading any record, it
aborts the process when the allocator refuses the reservation.
-/
namespace Ziggurat

/-! ## Object kinds and records -/

/-- The kind of object an `InvHash` names. -/
inductive ObjectKind where
  | error
  | tx
  | block
  | filteredBlock
  deriving DecidableEq, Repr

namespace ObjectKind

/-- The `u32` a kind is written as. -/
def toU32 : ObjectKind → Nat
  | .error => 0
  | .tx => 1
  | .block => 2
  | .filteredBlock => 3

def encode (kind : ObjectKind) : List UInt8 := leBytes 4 kind.toU32

def decode : Decoder ObjectKind := do
  let value ← readLe 4
  match value with
  | 0 => pure .error
  | 1 => pure .tx
  | 2 => pure .block
  | 3 => pure .filteredBlock
  | _ => throw (.panic .unreachable)

@[simp] theorem length_encode (kind : ObjectKind) : kind.encode.length = 4 := length_leBytes _ _

theorem decode_encode (kind : ObjectKind) (rest : List UInt8) :
    decode.run (kind.encode ++ rest) = .ok (kind, rest) := by
  cases kind <;> rw [decode, encode, Decoder.run_bind_ok (readLe_run_leBytes 4 _ (by decide) rest)]
    <;> rfl

/-- Every `u32` above 3 reaches the `unreachable!()`. -/
theorem decode_unreachable {value : Nat} (h₃ : 3 < value) (h : value < 2 ^ 32) (rest : List UInt8) :
    decode.run (leBytes 4 value ++ rest) = .error (.panic .unreachable) := by
  obtain ⟨k, rfl⟩ : ∃ k, value = k + 4 := ⟨value - 4, by omega⟩
  rw [decode, Decoder.run_bind_ok (readLe_run_leBytes 4 _ h rest)]
  rfl

theorem decode_error {cursor : List UInt8} {e : Failure} (h : decode.run cursor = .error e) :
    e = .error .unexpectedEof ∨ e = .panic .unreachable := by
  rcases Decoder.error_of_run_bind h with h | ⟨value, _, _, h⟩
  · exact .inl (readLe_error h)
  · right
    match value, h with
    | 0, h | 1, h | 2, h | 3, h => cases h
    | _ + 4, h => exact (Except.error.inj h).symm

/-- `ObjectKind::decode` accepts exactly the encodings of the four kinds. -/
theorem decode_ok {kind : ObjectKind} {cursor cursor' : List UInt8}
    (h : decode.run cursor = .ok (kind, cursor')) : cursor = kind.encode ++ cursor' := by
  obtain ⟨value, c, h₁, h₂⟩ := Decoder.ok_of_run_bind h
  rw [readLe_ok_leBytes h₁]
  match value, h₂ with
  | 0, h₂ | 1, h₂ | 2, h₂ | 3, h₂ => obtain ⟨rfl, rfl⟩ := Decoder.ok_of_run_pure h₂; rfl
  | _ + 4, h₂ => cases h₂

end ObjectKind

/-- An inventory record: what kind of object, and its hash. -/
structure InvHash where
  kind : ObjectKind
  hash : Hash
  deriving DecidableEq

namespace InvHash

def encode (record : InvHash) : List UInt8 := record.kind.encode ++ record.hash.encode

def decode : Decoder InvHash := do
  let kind ← ObjectKind.decode
  let hash ← Hash.decode
  pure ⟨kind, hash⟩

@[simp] theorem length_encode (record : InvHash) : record.encode.length = 36 := by
  simp [encode]

theorem decode_encode (record : InvHash) (rest : List UInt8) :
    decode.run (record.encode ++ rest) = .ok (record, rest) := by
  rw [encode, List.append_assoc, decode,
    Decoder.run_bind_ok (ObjectKind.decode_encode _ _),
    Decoder.run_bind_ok (Hash.decode_encode _ _)]
  rfl

theorem decode_error {cursor : List UInt8} {e : Failure} (h : decode.run cursor = .error e) :
    e = .error .unexpectedEof ∨ e = .panic .unreachable := by
  rcases Decoder.error_of_run_bind h with h | ⟨_, _, _, h⟩
  · exact ObjectKind.decode_error h
  rcases Decoder.error_of_run_bind h with h | ⟨_, _, _, h⟩
  · exact .inl (Hash.decode_error h)
  · cases h

/-- `InvHash::decode` accepts exactly the 36-byte encodings of records. -/
theorem decode_ok {record : InvHash} {cursor cursor' : List UInt8}
    (h : decode.run cursor = .ok (record, cursor')) : cursor = record.encode ++ cursor' := by
  obtain ⟨kind, c₁, h₁, h₂⟩ := Decoder.ok_of_run_bind h
  obtain ⟨hash, c₂, h₃, h₄⟩ := Decoder.ok_of_run_bind h₂
  obtain ⟨rfl, rfl⟩ := Decoder.ok_of_run_pure h₄
  rw [ObjectKind.decode_ok h₁, Hash.decode_ok h₃, encode, List.append_assoc]

end InvHash

/-! ## Reserving the inventory -/

/-- `isize::MAX` on a 64-bit target. -/
def isizeMax : Nat := 2 ^ 63 - 1

/-- `size_of::<InvHash>()`: a one-byte `ObjectKind` tag and a 32-byte `Hash`. -/
def invHashSize : Nat := 33

/-- `Vec::<InvHash>::with_capacity(n)`, on an allocator that answers a request
of `bytes` bytes with `serves bytes`: a "capacity overflow" panic when `n`
records need more than `isize::MAX` bytes; otherwise a request of `n * 33`
bytes, none for `n = 0`, and an empty vector once it is served.  A refused
request aborts the process (`handle_alloc_error`). -/
def withCapacity (serves : Nat → Bool) (n : Nat) : Decoder (List InvHash) :=
  if isizeMax < n * invHashSize then throw (.panic .capacityOverflow)
  else if n = 0 ∨ serves (n * invHashSize) = true then pure [] else throw .abort

section Reserve
variable {serves : Nat → Bool} {n : Nat}

theorem withCapacity_run_of_le (h : n * invHashSize ≤ isizeMax)
    (hs : n = 0 ∨ serves (n * invHashSize) = true) (cursor : List UInt8) :
    (withCapacity serves n).run cursor = .ok ([], cursor) := by
  rw [withCapacity, if_neg (Nat.not_lt.mpr h), if_pos hs]; rfl

theorem withCapacity_run_of_lt (h : isizeMax < n * invHashSize) (cursor : List UInt8) :
    (withCapacity serves n).run cursor = .error (.panic .capacityOverflow) := by
  rw [withCapacity, if_pos h]; rfl

theorem withCapacity_run_refused (h : n * invHashSize ≤ isizeMax) (h0 : n ≠ 0)
    (hs : serves (n * invHashSize) = false) (cursor : List UInt8) :
    (withCapacity serves n).run cursor = .error .abort := by
  rw [withCapacity, if_neg (Nat.not_lt.mpr h), if_neg (by simp [h0, hs])]; rfl

theorem withCapacity_ok {cursor cursor' : List UInt8} {v : List InvHash}
    (h : (withCapacity serves n).run cursor = .ok (v, cursor')) :
    n * invHashSize ≤ isizeMax ∧ (n = 0 ∨ serves (n * invHashSize) = true) ∧ v = [] ∧
      cursor' = cursor := by
  unfold withCapacity at h
  split_ifs at h with hn hs
  · cases h
  · cases h; exact ⟨Nat.not_lt.mp hn, hs, rfl, rfl⟩
  · cases h

theorem withCapacity_error {cursor : List UInt8} {e : Failure}
    (h : (withCapacity serves n).run cursor = .error e) :
    e = .panic .capacityOverflow ∨ e = .abort := by
  unfold withCapacity at h
  split_ifs at h
  · exact .inl (Except.error.inj h).symm
  · cases h
  · exact .inr (Except.error.inj h).symm

end Reserve

/-! ## `Inv` -/

/-- The `inv` (and `getdata`, `notfound`) payload. -/
structure Inv where
  count : VarInt
  inventory : List InvHash
  deriving DecidableEq

namespace Inv

/-- What every `Inv` value satisfies: its count is its number of records, which
`Inv::decode` establishes, and its records fit in a `Vec`, which never holds
more than `isize::MAX` bytes. -/
structure WellFormed (inv : Inv) : Prop where
  count_eq : inv.count.val = inv.inventory.length
  fits : inv.inventory.length * invHashSize ≤ isizeMax

def encode (inv : Inv) : List UInt8 :=
  inv.count.encode ++ inv.inventory.flatMap InvHash.encode

/-- `for _ in 0..count.0 { inventory.push(InvHash::decode(bytes)?) }`, with `n`
iterations left. -/
def decodeInventory : Nat → List InvHash → Decoder (List InvHash)
  | 0, inventory => pure inventory
  | n + 1, inventory => do
    let hash ← InvHash.decode
    decodeInventory n (inventory ++ [hash])

/-- `Inv::decode`, on an allocator that answers as `serves`. -/
def decodeWith (serves : Nat → Bool) : Decoder Inv := do
  let count ← VarInt.decode
  let inventory ← withCapacity serves count.val
  let inventory ← decodeInventory count.val inventory
  pure ⟨count, inventory⟩

/-- `Inv::decode` on an allocator that serves every request it is asked. -/
def decode : Decoder Inv := decodeWith fun _ => true

theorem length_flatMap_encode (records : List InvHash) :
    (records.flatMap InvHash.encode).length = 36 * records.length := by
  induction records with
  | nil => rfl
  | cons record records ih => simp [List.flatMap_cons, ih]; omega

theorem length_encode (inv : Inv) :
    inv.encode.length = inv.count.encode.length + 36 * inv.inventory.length := by
  rw [encode, List.length_append, length_flatMap_encode]

/-- The loop reads whole records off the front of the input, one an iteration. -/
theorem decodeInventory_run_append (records inventory : List InvHash) (n : Nat)
    (rest : List UInt8) :
    (decodeInventory (records.length + n) inventory).run (records.flatMap InvHash.encode ++ rest) =
      (decodeInventory n (inventory ++ records)).run rest := by
  induction records generalizing inventory with
  | nil => simp
  | cons record records ih =>
    rw [List.length_cons, Nat.add_right_comm, decodeInventory, List.flatMap_cons,
      List.append_assoc, Decoder.run_bind_ok (InvHash.decode_encode _ _), ih, List.append_assoc,
      List.singleton_append]

theorem decodeInventory_error {n : Nat} {inventory : List InvHash} {cursor : List UInt8}
    {e : Failure} (h : (decodeInventory n inventory).run cursor = .error e) :
    e = .error .unexpectedEof ∨ e = .panic .unreachable := by
  induction n generalizing inventory cursor with
  | zero => cases h
  | succ n ih =>
    rcases Decoder.error_of_run_bind h with h | ⟨_, _, _, h⟩
    · exact InvHash.decode_error h
    · exact ih h

/-- The loop accepts exactly whole records, and appends them in order. -/
theorem decodeInventory_ok {n : Nat} {inventory records : List InvHash} {cursor cursor' : List UInt8}
    (h : (decodeInventory n inventory).run cursor = .ok (records, cursor')) :
    ∃ read, records = inventory ++ read ∧ cursor = read.flatMap InvHash.encode ++ cursor' := by
  induction n generalizing inventory cursor with
  | zero =>
    obtain ⟨rfl, rfl⟩ := Decoder.ok_of_run_pure h
    exact ⟨[], (List.append_nil _).symm, rfl⟩
  | succ n ih =>
    obtain ⟨record, c, h₁, h₂⟩ := Decoder.ok_of_run_bind h
    obtain ⟨read, rfl, rfl⟩ := ih h₂
    exact ⟨record :: read, by simp,
      by rw [InvHash.decode_ok h₁, List.flatMap_cons, List.append_assoc]⟩

theorem length_decodeInventory {n : Nat} {inventory records : List InvHash}
    {cursor cursor' : List UInt8}
    (h : (decodeInventory n inventory).run cursor = .ok (records, cursor')) :
    records.length = inventory.length + n := by
  induction n generalizing inventory cursor with
  | zero => cases h; rfl
  | succ n ih =>
    obtain ⟨_, _, _, h⟩ := Decoder.ok_of_run_bind h
    rw [ih h, List.length_append, List.length_singleton, Nat.add_assoc, Nat.add_comm 1]

/-- **Round trip**: every well-formed inventory decodes from its encoding to
itself, and the decoder stops exactly where the encoding ends — after the
count's bytes and 36 bytes a record. -/
theorem decode_encode_append (inv : Inv) (h : inv.WellFormed) (rest : List UInt8) :
    decode.run (inv.encode ++ rest) = .ok (inv, rest) ∧
      inv.encode.length = inv.count.encode.length + 36 * inv.inventory.length := by
  refine ⟨?_, length_encode inv⟩
  rw [encode, List.append_assoc, decode, decodeWith, Decoder.run_bind_ok (VarInt.decode_encode _ _),
    Decoder.run_bind_ok (withCapacity_run_of_le (h.count_eq ▸ h.fits) (.inr rfl) _), h.count_eq,
    ← Nat.add_zero inv.inventory.length, Decoder.run_bind_congr (decodeInventory_run_append _ _ 0 rest)]
  rfl

/-- One record of each kind, then 249 blocks: 253 records, the first count
written in three bytes (`FD` and a `u16`). -/
def mixedInventory : Inv :=
  ⟨VarInt.ofNat 253, [⟨.error, Hash.zeroed⟩, ⟨.tx, Hash.zeroed⟩, ⟨.block, Hash.zeroed⟩,
    ⟨.filteredBlock, Hash.zeroed⟩] ++ List.replicate 249 ⟨.block, Hash.zeroed⟩⟩

/-- The mixed inventory round-trips behind a one-byte suffix, its count taking
three bytes. -/
theorem decode_encode_mixed_kinds :
    mixedInventory.WellFormed ∧
      decode.run (mixedInventory.encode ++ [7]) = .ok (mixedInventory, [7]) ∧
      mixedInventory.encode.length = 3 + 36 * 253 :=
  have hlen : mixedInventory.inventory.length = 253 := by
    simp only [mixedInventory, List.length_append, List.length_replicate, List.length_cons,
      List.length_nil]
  have hwf : mixedInventory.WellFormed := ⟨hlen ▸ rfl, hlen ▸ by decide⟩
  have h := decode_encode_append _ hwf [7]
  ⟨hwf, h.1, h.2.trans (by rw [hlen]; rfl)⟩

/-! ## How decoding ends -/

/-- **What `Inv::decode` establishes**: every inventory it returns has as
many records as its count, and they fit in a `Vec`. -/
theorem decode_wellFormed {cursor cursor' : List UInt8} {inv : Inv}
    (h : decode.run cursor = .ok (inv, cursor')) : inv.WellFormed := by
  obtain ⟨count, _, _, h₁⟩ := Decoder.ok_of_run_bind h
  obtain ⟨reserved, _, hcap, h₂⟩ := Decoder.ok_of_run_bind h₁
  obtain ⟨hfits, -, rfl, rfl⟩ := withCapacity_ok hcap
  obtain ⟨records, _, hloop, h₃⟩ := Decoder.ok_of_run_bind h₂
  cases h₃
  have hlen := length_decodeInventory hloop
  simp only [List.length_nil, Nat.zero_add] at hlen
  exact ⟨hlen.symm, hlen ▸ hfits⟩

/-- A one-record inventory decoded from its encoding. -/
theorem decode_wellFormed_single_block :
    decode.run (encode ⟨VarInt.ofNat 1, [⟨.block, Hash.zeroed⟩]⟩) =
        .ok (⟨VarInt.ofNat 1, [⟨.block, Hash.zeroed⟩]⟩, []) ∧
      (⟨VarInt.ofNat 1, [⟨.block, Hash.zeroed⟩]⟩ : Inv).WellFormed :=
  ⟨rfl, @decode_wellFormed (encode ⟨VarInt.ofNat 1, [⟨.block, Hash.zeroed⟩]⟩) [] _ rfl⟩

/-- **What `Inv::decode` accepts**: a form of the count, canonical or not,
then exactly the 36-byte encodings of the records it returns, in order, and
nothing more. -/
theorem decode_accepted_form {inv : Inv} {cursor cursor' : List UInt8}
    (h : decode.run cursor = .ok (inv, cursor')) :
    ∃ countBytes, cursor = countBytes ++ inv.inventory.flatMap InvHash.encode ++ cursor' ∧
      ∀ xs, VarInt.decode.run (countBytes ++ xs) = .ok (inv.count, xs) := by
  obtain ⟨count, c₁, h₁, h₂⟩ := Decoder.ok_of_run_bind h
  obtain ⟨reserved, c₂, hcap, h₃⟩ := Decoder.ok_of_run_bind h₂
  obtain ⟨-, -, rfl, rfl⟩ := withCapacity_ok hcap
  obtain ⟨records, c₃, hloop, h₄⟩ := Decoder.ok_of_run_bind h₃
  obtain ⟨rfl, rfl⟩ := Decoder.ok_of_run_pure h₄
  obtain ⟨read, rfl, rfl⟩ := decodeInventory_ok hloop
  obtain ⟨pre, rfl, hpre⟩ := VarInt.decode_ok h₁
  exact ⟨pre, by simp, hpre⟩

/-- A one-record inventory behind the non-canonical count `FD 01 00`. -/
theorem decode_accepted_form_noncanonical :
    ∃ countBytes, [0xFD, 0x01, 0x00] ++ InvHash.encode ⟨.block, Hash.zeroed⟩ =
        countBytes ++ ([⟨.block, Hash.zeroed⟩] : List InvHash).flatMap InvHash.encode ++ [] ∧
      ∀ xs, VarInt.decode.run (countBytes ++ xs) = .ok (VarInt.ofNat 1, xs) :=
  @decode_accepted_form ⟨VarInt.ofNat 1, [⟨.block, Hash.zeroed⟩]⟩
    ([0xFD, 0x01, 0x00] ++ InvHash.encode ⟨.block, Hash.zeroed⟩) [] rfl

/-- **`Inv::decode` never returns `InvalidData`.**  On every allocator and
every input it fails, if it fails, with `UnexpectedEof`, by panicking at
`unreachable!()` or in `Vec::with_capacity`, or by aborting the process when
the allocator refuses the reservation. -/
theorem decode_error_kinds {serves : Nat → Bool} {cursor : List UInt8} {e : Failure}
    (h : (decodeWith serves).run cursor = .error e) :
    e = .error .unexpectedEof ∨ e = .panic .unreachable ∨ e = .panic .capacityOverflow ∨
      e = .abort := by
  rcases Decoder.error_of_run_bind h with h₁ | ⟨count, _, _, h₁⟩
  · exact .inl (VarInt.decode_error h₁)
  rcases Decoder.error_of_run_bind h₁ with h₂ | ⟨_, _, hcap, h₂⟩
  · exact .inr (.inr (withCapacity_error h₂))
  obtain ⟨-, -, rfl, rfl⟩ := withCapacity_ok hcap
  rcases Decoder.error_of_run_bind h₂ with h₃ | ⟨_, _, _, h₃⟩
  · exact (decodeInventory_error h₃).imp_right .inl
  · cases h₃

/-- A count of two, then one byte, on an allocator that refuses everything:
the process aborts before the decoder finds the input short. -/
theorem decode_error_kinds_refused :
    (decodeWith fun _ => false).run [0x02, 0x01] = .error .abort ∧
      ((.abort : Failure) = .error .unexpectedEof ∨ (.abort : Failure) = .panic .unreachable ∨
        (.abort : Failure) = .panic .capacityOverflow ∨ (.abort : Failure) = .abort) :=
  ⟨rfl, @decode_error_kinds (fun _ => false) [0x02, 0x01] _ rfl⟩

/-- **A kind above 3 panics the decoder.**  Once the allocator has served the
reservation, the first record, after any records that decode, whose 4-byte
kind is outside `0..=3` reaches `unreachable!()` in `ObjectKind::decode`,
whatever follows it. -/
theorem decode_kind_unreachable (serves : Nat → Bool) (count : VarInt) (records : List InvHash)
    (kind : Nat) (rest : List UInt8) (hmore : records.length < count.val)
    (hfits : count.val * invHashSize ≤ isizeMax) (hserves : serves (count.val * invHashSize) = true)
    (h₃ : 3 < kind) (h : kind < 2 ^ 32) :
    (decodeWith serves).run (count.encode ++ records.flatMap InvHash.encode ++ leBytes 4 kind ++ rest) =
      .error (.panic .unreachable) := by
  obtain ⟨n, hn⟩ : ∃ n, count.val = records.length + (n + 1) :=
    ⟨count.val - records.length - 1, by omega⟩
  rw [List.append_assoc, List.append_assoc, decodeWith,
    Decoder.run_bind_ok (VarInt.decode_encode _ _),
    Decoder.run_bind_ok (withCapacity_run_of_le hfits (.inr hserves) _), hn,
    Decoder.run_bind_congr (decodeInventory_run_append _ _ _ _), decodeInventory]
  exact Decoder.run_bind_error (Decoder.run_bind_error
    (Decoder.run_bind_error (ObjectKind.decode_unreachable h₃ h rest)))

/-- Decoding a record of kind 5 after one good record. -/
theorem decode_kind_unreachable_second_record :
    (1 : Nat) < (VarInt.ofNat 2).val ∧ (VarInt.ofNat 2).val * invHashSize ≤ isizeMax ∧
      3 < 5 ∧ 5 < 2 ^ 32 ∧
      decode.run ((VarInt.ofNat 2).encode ++ [⟨.tx, Hash.zeroed⟩].flatMap InvHash.encode ++
        leBytes 4 5 ++ []) = .error (.panic .unreachable) :=
  ⟨by decide, by decide, by decide, by decide,
    decode_kind_unreachable (fun _ => true) (VarInt.ofNat 2) [⟨.tx, Hash.zeroed⟩] 5 [] (by decide)
      (by decide) rfl (by decide) (by decide)⟩

/-- **`Inv::decode` reserves before it reads a record.**  Whatever follows the
count, on every allocator: a count whose records need more than `isize::MAX`
bytes panics in `Vec::with_capacity`, and a nonzero count within that bound
whose request the allocator refuses aborts the process. -/
theorem decode_fails_at_reservation (serves : Nat → Bool) (count : VarInt) (rest : List UInt8) :
    (isizeMax < count.val * invHashSize →
      (decodeWith serves).run (count.encode ++ rest) = .error (.panic .capacityOverflow)) ∧
    (count.val * invHashSize ≤ isizeMax → count.val ≠ 0 →
      serves (count.val * invHashSize) = false →
      (decodeWith serves).run (count.encode ++ rest) = .error .abort) := by
  rw [decodeWith, Decoder.run_bind_ok (VarInt.decode_encode _ _)]
  exact ⟨fun h => Decoder.run_bind_error (withCapacity_run_of_lt h _),
    fun h h0 hs => Decoder.run_bind_error (withCapacity_run_refused h h0 hs _)⟩

/-- The largest count, `u64::MAX`, panics on every allocator; `2^40` records
(33 TiB) on an allocator that serves less than a tebibyte abort. -/
theorem decode_fails_at_reservation_huge_counts :
    (decodeWith fun _ => true).run ((VarInt.ofNat (2 ^ 64 - 1)).encode ++ []) =
        .error (.panic .capacityOverflow) ∧
      (decodeWith fun bytes => decide (bytes < 2 ^ 40)).run ((VarInt.ofNat (2 ^ 40)).encode ++ [0x00]) =
        .error .abort :=
  ⟨(decode_fails_at_reservation _ _ _).1 (by decide),
    (decode_fails_at_reservation _ _ _).2 (by decide) (by decide) (by decide)⟩

/-- The five-byte body `01 04 00 00 00` (one record, of kind 4) panics at
`unreachable!()`, and the nine-byte body `FF FF FF FF FF FF FF FF FF` (count
`u64::MAX`) panics in `Vec::with_capacity`. -/
theorem decode_run_panics :
    decode.run [0x01, 0x04, 0x00, 0x00, 0x00] = .error (.panic .unreachable) ∧
      decode.run [0xFF, 0xFF, 0xFF, 0xFF, 0xFF, 0xFF, 0xFF, 0xFF, 0xFF] =
        .error (.panic .capacityOverflow) :=
  ⟨rfl, rfl⟩

end Inv

end Ziggurat
