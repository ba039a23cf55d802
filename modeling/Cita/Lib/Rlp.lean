import Cita.Lib.Word
import Mathlib.Data.Nat.Digits.Lemmas

/-!
# Recursive length prefix

The RLP encoding of byte strings and lists of items (Ethereum yellow paper,
appendix B), a decoder for it, and the typed readings of a decoded item
that the `Decodable` implementations of the `rlp` crate make: integers
without leading zeros, hashes of a fixed size, `Option` as a list of at
most one item.

`decodeItem_encode` is the round trip: the decoder reads back every item
whose strings and lists are shorter than `2^64` bytes (`Small`), followed
by any bytes. The decoder takes fuel; twice the length of its input is
always enough.
-/

namespace Cita

namespace Rlp

/-- An RLP item: a byte string or a list of items. -/
inductive Item where
  | bytes (b : List UInt8)
  | list (items : List Item)
deriving Repr, Inhabited

/-! ## Encoding -/

/-- `n` big-endian, without leading zeros: nothing for zero. -/
def natBytes (n : Nat) : List UInt8 := ((Nat.digits 256 n).map Nat.toUInt8).reverse

/-- The first prefix byte of a byte string, and of a list. -/
def prefixOffset : Bool → Nat
  | false => 0x80
  | true => 0xc0

/-- The prefix of a payload of `len` bytes: a byte string's, or a list's. -/
def header (isList : Bool) (len : Nat) : List UInt8 :=
  if len < 56 then [(prefixOffset isList + len).toUInt8]
  else (prefixOffset isList + 55 + (natBytes len).length).toUInt8 :: natBytes len

/-- A byte string: a single byte below `0x80` is its own encoding. -/
def encodeBytes : List UInt8 → List UInt8
  | [b] => if b.toNat < 0x80 then [b] else header false 1 ++ [b]
  | b => header false b.length ++ b

mutual
def encode : Item → List UInt8
  | .bytes b => encodeBytes b
  | .list items => header true (encodeList items).length ++ encodeList items

/-- The items of a list, one after the other. -/
def encodeList : List Item → List UInt8
  | [] => []
  | i :: is => encode i ++ encodeList is
end

/-- The items the round trip covers: every string and every list payload
shorter than `2^64` bytes, as the length of a `Vec` is a `usize`. -/
inductive Item.Small : Item → Prop
  | bytes {b : List UInt8} : b.length < 2 ^ 64 → Small (.bytes b)
  | list {items : List Item} : (encodeList items).length < 2 ^ 64 → (∀ i ∈ items, Small i) →
      Small (.list items)

/-! ## Decoding -/

/-- What a prefix byte at or above `0x80` announces: whether a list
follows, the length of the payload, and the bytes after the prefix. -/
def readPrefix (b : UInt8) (bs : List UInt8) : Bool × Nat × List UInt8 :=
  if b.toNat < 0xb8 then (false, b.toNat - 0x80, bs)
  else if b.toNat < 0xc0 then
    (false, Word.bytesValue (bs.take (b.toNat - 0xb7)), bs.drop (b.toNat - 0xb7))
  else if b.toNat < 0xf8 then (true, b.toNat - 0xc0, bs)
  else (true, Word.bytesValue (bs.take (b.toNat - 0xf7)), bs.drop (b.toNat - 0xf7))

mutual
/-- The first item of `bytes` and the bytes after it. -/
def decodeItem : Nat → List UInt8 → Option (Item × List UInt8)
  | 0, _ => none
  | _ + 1, [] => none
  | fuel + 1, b :: bs =>
    if b.toNat < 0x80 then some (.bytes [b], bs)
    else
      let (isList, len, body) := readPrefix b bs
      if body.length < len then none
      else if isList then
        (decodeItems fuel (body.take len)).map fun items => (.list items, body.drop len)
      else some (.bytes (body.take len), body.drop len)

/-- The items of a list payload. -/
def decodeItems : Nat → List UInt8 → Option (List Item)
  | _, [] => some []
  | 0, _ :: _ => none
  | fuel + 1, b :: bs => do
    let (i, rest) ← decodeItem fuel (b :: bs)
    let is ← decodeItems fuel rest
    pure (i :: is)
end

/-- The item at the start of `bytes`; what follows it is not read, as
`UntrustedRlp` reads an item lazily from its prefix. -/
def decode (bytes : List UInt8) : Option Item :=
  (decodeItem (2 * bytes.length) bytes).map Prod.fst

/-! ## Lengths of numbers -/

theorem length_natBytes_le {n k : Nat} (h : n < 256 ^ k) : (natBytes n).length ≤ k := by
  rw [natBytes, List.length_reverse, List.length_map]
  exact (Nat.digits_length_le_iff (by norm_num) n).mpr h

theorem natBytes_ne_nil {n : Nat} (h : n ≠ 0) : natBytes n ≠ [] := by
  simpa [natBytes] using Nat.digits_ne_nil_iff_ne_zero.mpr h

theorem bytesValue_reverse_digits (ds : List Nat) (hds : ∀ d ∈ ds, d < 256) :
    Word.bytesValue (ds.map Nat.toUInt8).reverse = Nat.ofDigits 256 ds := by
  induction ds with
  | nil => rfl
  | cons d ds ih =>
    have hd : d < 256 := hds d List.mem_cons_self
    rw [List.map_cons, List.reverse_cons, Word.bytesValue_append_single,
      ih fun e he => hds e (List.mem_cons_of_mem _ he), Nat.ofDigits_cons]
    simp [Nat.toUInt8_eq, UInt8.toNat_ofNat', Nat.mod_eq_of_lt hd]
    ring

@[simp] theorem bytesValue_natBytes (n : Nat) : Word.bytesValue (natBytes n) = n := by
  rw [natBytes, bytesValue_reverse_digits _ fun d hd => Nat.digits_lt_base (by norm_num) hd,
    Nat.ofDigits_digits]

/-- The first byte of a number is not zero. -/
theorem head_natBytes_ne_zero {n : Nat} {b : UInt8} {bs : List UInt8}
    (h : natBytes n = b :: bs) : b ≠ 0 := by
  have hn : n ≠ 0 := fun hn => by simp [natBytes, hn] at h
  have hne : Nat.digits 256 n ≠ [] := Nat.digits_ne_nil_iff_ne_zero.mpr hn
  have hlast := Nat.getLast_digit_ne_zero 256 hn
  have hlt : (Nat.digits 256 n).getLast hne < 256 :=
    Nat.digits_lt_base (by norm_num) (List.getLast_mem hne)
  -- the first byte is the last digit
  have hhead : (natBytes n).head? = some b := by rw [h]; rfl
  rw [natBytes, List.head?_reverse, List.getLast?_map, List.getLast?_eq_some_getLast hne,
    Option.map_some, Option.some.injEq] at hhead
  intro hb0
  rw [hb0, Nat.toUInt8_eq] at hhead
  have := congrArg UInt8.toNat hhead
  rw [UInt8.toNat_ofNat', Nat.mod_eq_of_lt hlt] at this
  exact hlast this

/-! ## Reading the prefix back -/

theorem toNat_toUInt8 {n : Nat} (h : n < 256) : n.toUInt8.toNat = n := by
  rw [Nat.toUInt8_eq, UInt8.toNat_ofNat']
  exact Nat.mod_eq_of_lt h

theorem header_ne_nil (isList : Bool) (len : Nat) : header isList len ≠ [] := by
  rw [header]
  split <;> exact List.cons_ne_nil _ _

theorem length_header_pos (isList : Bool) (len : Nat) : 0 < (header isList len).length :=
  List.length_pos_iff.mpr (header_ne_nil isList len)

/-- The prefix of a payload shorter than `2^64` reads back as what it
announces. -/
theorem readPrefix_header {isList : Bool} {len : Nat} (hlen : len < 2 ^ 64) (rest : List UInt8) :
    ∃ b hs, header isList len = b :: hs ∧ 0x80 ≤ b.toNat ∧
      readPrefix b (hs ++ rest) = (isList, len, rest) := by
  by_cases hshort : len < 56
  · refine ⟨_, [], by rw [header, if_pos hshort], ?_⟩
    cases isList
    · have hb : (prefixOffset false + len).toUInt8.toNat = 0x80 + len := toNat_toUInt8 (by
        rw [prefixOffset]; omega)
      refine ⟨by omega, ?_⟩
      rw [readPrefix, hb, if_pos (by omega), List.nil_append, Nat.add_sub_cancel_left]
    · have hb : (prefixOffset true + len).toUInt8.toNat = 0xc0 + len := toNat_toUInt8 (by
        rw [prefixOffset]; omega)
      refine ⟨by omega, ?_⟩
      rw [readPrefix, hb, if_neg (by omega), if_neg (by omega), if_pos (by omega),
        List.nil_append, Nat.add_sub_cancel_left]
  · -- the long form: the length of the length, then the length
    have hk : (natBytes len).length ≤ 8 := length_natBytes_le (by simpa using hlen)
    have hk0 : 0 < (natBytes len).length :=
      List.length_pos_iff.mpr (natBytes_ne_nil (by omega))
    refine ⟨_, natBytes len, by rw [header, if_neg hshort], ?_⟩
    cases isList
    · have hb : (prefixOffset false + 55 + (natBytes len).length).toUInt8.toNat =
          0xb7 + (natBytes len).length := toNat_toUInt8 (by rw [prefixOffset]; omega)
      refine ⟨by omega, ?_⟩
      rw [readPrefix, hb, if_neg (by omega), if_pos (by omega), Nat.add_sub_cancel_left,
        List.take_left, List.drop_left, bytesValue_natBytes]
    · have hb : (prefixOffset true + 55 + (natBytes len).length).toUInt8.toNat =
          0xf7 + (natBytes len).length := toNat_toUInt8 (by rw [prefixOffset]; omega)
      refine ⟨by omega, ?_⟩
      rw [readPrefix, hb, if_neg (by omega), if_neg (by omega), if_neg (by omega),
        Nat.add_sub_cancel_left, List.take_left, List.drop_left, bytesValue_natBytes]

/-! ## The round trip -/

/-- A byte string is its own encoding, or a string prefix and itself. -/
theorem encodeBytes_cases (b : List UInt8) :
    (∃ x, b = [x] ∧ x.toNat < 0x80 ∧ encodeBytes b = [x]) ∨
      encodeBytes b = header false b.length ++ b := by
  match b with
  | [x] =>
    by_cases hx : x.toNat < 0x80
    · exact .inl ⟨x, rfl, hx, by rw [encodeBytes, if_pos hx]⟩
    · exact .inr (by rw [encodeBytes, if_neg hx]; rfl)
  | [] => exact .inr rfl
  | _ :: _ :: _ => exact .inr rfl

theorem encode_ne_nil : ∀ i : Item, encode i ≠ []
  | .bytes b => by
    rw [encode]
    rcases encodeBytes_cases b with ⟨x, -, -, h⟩ | h <;> rw [h]
    · exact List.cons_ne_nil _ _
    · exact List.append_ne_nil_of_left_ne_nil (header_ne_nil _ _) _
  | .list _ => by
    rw [encode]
    exact List.append_ne_nil_of_left_ne_nil (header_ne_nil _ _) _

theorem length_encode_pos (i : Item) : 0 < (encode i).length :=
  List.length_pos_iff.mpr (encode_ne_nil i)

/-- A payload after a prefix that announces it. -/
theorem decodeItem_header {isList : Bool} {payload : List UInt8} (hlen : payload.length < 2 ^ 64)
    (fuel : Nat) (rest : List UInt8) :
    decodeItem (fuel + 1) (header isList payload.length ++ payload ++ rest) =
      if isList then (decodeItems fuel payload).map fun items => (.list items, rest)
      else some (.bytes payload, rest) := by
  obtain ⟨b, hs, hh, hb, hread⟩ := @readPrefix_header isList _ hlen (payload ++ rest)
  rw [hh, List.append_assoc, List.cons_append, decodeItem, if_neg (by omega)]
  dsimp only
  rw [hread, if_neg (by simp), List.take_left, List.drop_left]

mutual
/-- The decoder reads back an item and leaves what follows it. -/
theorem decodeItem_encode : ∀ (i : Item) (fuel : Nat) (rest : List UInt8), i.Small →
    2 * (encode i).length ≤ fuel + 1 → decodeItem fuel (encode i ++ rest) = some (i, rest)
  | .bytes b, fuel, rest, hs, hfuel => by
    have hb : b.length < 2 ^ 64 := by cases hs; assumption
    obtain ⟨fuel, rfl⟩ : ∃ f, fuel = f + 1 :=
      ⟨fuel - 1, by have := length_encode_pos (.bytes b); omega⟩
    rw [encode]
    rcases encodeBytes_cases b with ⟨x, rfl, hx, h⟩ | h
    · rw [h, List.singleton_append, decodeItem, if_pos hx]
    · rw [h, decodeItem_header hb, if_neg Bool.false_ne_true]
  | .list items, fuel, rest, hs, hfuel => by
    obtain ⟨hp, hitems⟩ : (encodeList items).length < 2 ^ 64 ∧ ∀ i ∈ items, i.Small := by
      cases hs; constructor <;> assumption
    obtain ⟨fuel, rfl⟩ : ∃ f, fuel = f + 1 :=
      ⟨fuel - 1, by have := length_encode_pos (.list items); omega⟩
    -- the payload is read with the fuel left after the prefix
    have hfuel' : 2 * (encodeList items).length ≤ fuel := by
      have := length_header_pos true (encodeList items).length
      rw [encode, List.length_append] at hfuel
      omega
    rw [encode, decodeItem_header hp, if_pos rfl, decodeItems_encodeList items fuel hitems hfuel']
    rfl

/-- The decoder reads back the items of a list payload. -/
theorem decodeItems_encodeList : ∀ (items : List Item) (fuel : Nat), (∀ i ∈ items, i.Small) →
    2 * (encodeList items).length ≤ fuel → decodeItems fuel (encodeList items) = some items
  | [], fuel, _, _ => by
    rw [encodeList]
    cases fuel <;> rfl
  | i :: is, fuel, hs, hfuel => by
    have hi := length_encode_pos i
    rw [encodeList, List.length_append] at hfuel
    obtain ⟨fuel, rfl⟩ : ∃ f, fuel = f + 1 := ⟨fuel - 1, by omega⟩
    obtain ⟨c, cs, hc⟩ := List.exists_cons_of_ne_nil (encode_ne_nil i)
    have hhead := decodeItem_encode i fuel (encodeList is) (hs i List.mem_cons_self) (by omega)
    have htail := decodeItems_encodeList is fuel (fun j hj => hs j (List.mem_cons_of_mem _ hj))
      (by omega)
    rw [encodeList, hc, List.cons_append, decodeItems, ← List.cons_append, ← hc, hhead]
    simp [htail]
end

/-- `rlp::decode` of an encoding reads the item back. -/
theorem decode_encode {i : Item} (h : i.Small) : decode (encode i) = some i := by
  have hread := decodeItem_encode i (2 * (encode i).length) [] h (by omega)
  rw [List.append_nil] at hread
  rw [decode, hread]
  rfl

/-- Different items that fit have different encodings. -/
theorem encode_inj {i j : Item} (hi : i.Small) (hj : j.Small) (h : encode i = encode j) : i = j := by
  have hdec := congrArg decode h
  rw [decode_encode hi, decode_encode hj] at hdec
  exact Option.some.inj hdec

/-! ## Lengths of encodings -/

@[simp] theorem encodeList_append (is js : List Item) :
    encodeList (is ++ js) = encodeList is ++ encodeList js := by
  induction is with
  | nil => rfl
  | cons i is ih => rw [List.cons_append, encodeList, encodeList, ih, List.append_assoc]

theorem length_header_le (isList : Bool) {len : Nat} (hlen : len < 2 ^ 64) :
    (header isList len).length ≤ 9 := by
  have hk : (natBytes len).length ≤ 8 := length_natBytes_le (by simpa using hlen)
  rw [header]
  split
  · simp
  · simp only [List.length_cons]
    omega

theorem length_encode_bytes_le {b : List UInt8} (hb : b.length < 2 ^ 64) :
    (encode (.bytes b)).length ≤ b.length + 9 := by
  have hh := length_header_le false hb
  rw [encode]
  rcases encodeBytes_cases b with ⟨x, rfl, -, h⟩ | h <;> rw [h]
  · simp
  · rw [List.length_append]
    omega

theorem length_le_length_encode_bytes (b : List UInt8) : b.length ≤ (encode (.bytes b)).length := by
  rw [encode]
  rcases encodeBytes_cases b with ⟨x, rfl, -, h⟩ | h <;> rw [h]
  rw [List.length_append]
  omega

theorem length_encodeList_le_encode (items : List Item) :
    (encodeList items).length ≤ (encode (.list items)).length := by
  rw [encode, List.length_append]
  omega

theorem length_encode_le_encodeList {i : Item} {items : List Item} (h : i ∈ items) :
    (encode i).length ≤ (encodeList items).length := by
  induction items with
  | nil => nomatch h
  | cons j js ih =>
    rw [encodeList, List.length_append]
    rcases List.mem_cons.mp h with rfl | h
    · omega
    · have := ih h
      omega

mutual
/-- An item whose encoding is shorter than `2^64` bytes fits. -/
theorem small_of_length_encode : ∀ i : Item, (encode i).length < 2 ^ 64 → i.Small
  | .bytes b, h => by
    refine .bytes ?_
    rw [encode] at h
    rcases encodeBytes_cases b with ⟨x, rfl, -, -⟩ | hb
    · simp
    · rw [hb, List.length_append] at h
      omega
  | .list items, h => by
    rw [encode, List.length_append] at h
    exact .list (by omega) (small_of_length_encodeList items (by omega))

theorem small_of_length_encodeList : ∀ items : List Item, (encodeList items).length < 2 ^ 64 →
    ∀ i ∈ items, i.Small
  | [], _ => fun _ hi => nomatch hi
  | j :: js, h => by
    rw [encodeList, List.length_append] at h
    intro i hi
    rcases List.mem_cons.mp hi with hij | hi
    · exact hij ▸ small_of_length_encode j (by omega)
    · exact small_of_length_encodeList js (by omega) i hi
end

/-- A list whose payload is shorter than `2^64` bytes is covered. -/
theorem small_list {items : List Item} (h : (encodeList items).length < 2 ^ 64) : (Item.list items).Small :=
  .list h (small_of_length_encodeList items h)

/-! ## Reading a decoded item -/

/-- `DecoderError`. -/
inductive DecoderError where
  | rlpIsTooBig
  | rlpIsTooShort
  | rlpExpectedToBeList
  | rlpExpectedToBeData
  | rlpIncorrectListLen
  | rlpInvalidIndirection
  | custom (msg : String)
deriving Repr, DecidableEq

namespace Item

/-- `item_count`. -/
def itemCount : Item → Except DecoderError Nat
  | .list items => .ok items.length
  | .bytes _ => .error .rlpExpectedToBeList

/-- `at`: the item at `index` of a list. -/
def itemAt (i : Item) (index : Nat) : Except DecoderError Item :=
  match i with
  | .list items =>
    match items[index]? with
    | some x => .ok x
    | none => .error .rlpIsTooShort
  | .bytes _ => .error .rlpExpectedToBeList

/-- `is_empty`: the empty string or the empty list. -/
def isEmpty : Item → Bool
  | .bytes [] => true
  | .list [] => true
  | _ => false

@[simp] theorem isEmpty_bytes (b : List UInt8) : (Item.bytes b).isEmpty = b.isEmpty := by
  cases b <;> rfl

/-- `decode_value`: the bytes of a string. -/
def value : Item → Except DecoderError (List UInt8)
  | .bytes b => .ok b
  | .list _ => .error .rlpExpectedToBeData

end Item

/-- An unsigned integer, written in `natBytes`. -/
def uint (n : Nat) : Item := .bytes (natBytes n)

/-- The `Decodable` of an unsigned integer of `size` bytes: no leading
zero, and not too long. -/
def decodeUint (size : Nat) (i : Item) : Except DecoderError Nat := do
  let b ← i.value
  if b.head? = some 0 then .error .rlpInvalidIndirection
  else if b.length ≤ size then .ok (Word.bytesValue b)
  else .error .rlpIsTooBig

/-- A hash of `size` bytes, written in full. -/
def hash (n size : Nat) : Item := .bytes (Word.toBytes n size)

/-- The `Decodable` of a hash of `size` bytes: exactly that many. -/
def decodeHash (size : Nat) (i : Item) : Except DecoderError Nat := do
  let b ← i.value
  if b.length < size then .error .rlpIsTooShort
  else if size < b.length then .error .rlpIsTooBig
  else .ok (Word.bytesValue b)

/-- `Option<T>`: a list of no item or one. -/
def option {α : Type} (enc : α → Item) : Option α → Item
  | none => .list []
  | some a => .list [enc a]

/-- The `Decodable` of `Option<T>`. -/
def decodeOption {α : Type} (dec : Item → Except DecoderError α) :
    Item → Except DecoderError (Option α)
  | .list [] => .ok none
  | .list [x] => some <$> dec x
  | .list _ => .error .rlpIncorrectListLen
  | .bytes _ => .error .rlpExpectedToBeList

/-- `UntrustedRlp::new(bytes)`, read at once: the item at the start of
`bytes`. The crate reads the items of a list lazily, so it also accepts a
list whose items after the last one asked for do not parse; bytes that do
not parse at all are reported as `RlpIsTooShort`. -/
def untrusted (bytes : List UInt8) : Except DecoderError Item :=
  match decode bytes with
  | some i => .ok i
  | none => .error .rlpIsTooShort

/-- `val_at`: the item at `index` of a list, read by `dec`. -/
def valAt {α : Type} (r : Item) (index : Nat) (dec : Item → Except DecoderError α) :
    Except DecoderError α := do
  dec (← r.itemAt index)

/-- `as_list`: the items of a list, each read by `dec`. The crate walks
the items with `at`, which fails on a string, so a string reads as a list
of no item. -/
def Item.asList {α : Type} (dec : Item → Except DecoderError α) : Item → Except DecoderError (List α)
  | .list items => items.mapM dec
  | .bytes _ => .ok []

/-- `list_at`: the item at `index` of a list, read as a list by `dec`. -/
def listAt {α : Type} (r : Item) (index : Nat) (dec : Item → Except DecoderError α) :
    Except DecoderError (List α) :=
  valAt r index (Item.asList dec)

-- Stated as a rewrite rather than by `rfl`: a definitional `simp` step
-- through a long `do` block sends the kernel into unfolding the decoders.
@[simp] theorem except_ok_bind {ε α β : Type} (a : α) (f : α → Except ε β) :
    (Except.ok a >>= f) = f a := by
  simp only [bind, Except.bind]

@[simp] theorem except_throw_bind {ε α β : Type} (e : ε) (f : α → Except ε β) :
    (throw e >>= f : Except ε β) = .error e := by
  simp only [throw, throwThe, MonadExceptOf.throw, bind, Except.bind]

@[simp] theorem value_bytes (b : List UInt8) : (Item.bytes b).value = .ok b := rfl

theorem decodeUint_uint {size n : Nat} (h : n < 256 ^ size) : decodeUint size (uint n) = .ok n := by
  have hnz : (natBytes n).head? ≠ some 0 := by
    intro h0
    obtain ⟨bs, hbs⟩ : ∃ bs, natBytes n = 0 :: bs := by
      cases hn : natBytes n with
      | nil => rw [hn] at h0; cases h0
      | cons b bs => rw [hn] at h0; cases h0; exact ⟨bs, rfl⟩
    exact head_natBytes_ne_zero hbs rfl
  rw [decodeUint, uint, value_bytes, except_ok_bind, if_neg hnz, if_pos (length_natBytes_le h),
    bytesValue_natBytes]

theorem decodeHash_hash (n size : Nat) : decodeHash size (hash n size) = .ok (n % 256 ^ size) := by
  rw [decodeHash, hash, value_bytes, except_ok_bind, Word.length_toBytes, if_neg (Nat.lt_irrefl _),
    if_neg (Nat.lt_irrefl _), Word.bytesValue_toBytes]

theorem ofNat_bytesValue_toBytes {w k : Nat} (x : BitVec w) (hk : w = 8 * k) :
    BitVec.ofNat w (Word.bytesValue (Word.toBytes x.toNat k)) = x := by
  rw [Word.bytesValue_toBytes, Word.ofNat_toNat_mod x hk]

theorem decodeUint_toNat {w k : Nat} (x : BitVec w) (hk : w = 8 * k) :
    decodeUint k (uint x.toNat) = .ok x.toNat := by
  have hpow : 256 ^ k = 2 ^ w := by rw [hk, pow_mul]; norm_num
  exact decodeUint_uint (hpow ▸ x.isLt)

theorem decodeOption_option {α : Type} {enc : α → Item} {dec : Item → Except DecoderError α}
    (h : ∀ a, dec (enc a) = .ok a) (o : Option α) : decodeOption dec (option enc o) = .ok o := by
  cases o with
  | none => rfl
  | some a => simp [option, decodeOption, h]

theorem untrusted_encode {i : Item} (h : i.Small) : untrusted (encode i) = .ok i := by
  rw [untrusted, decode_encode h]

theorem valAt_list {α : Type} {items : List Item} {index : Nat} {x : Item} (hx : items[index]? = some x)
    (dec : Item → Except DecoderError α) : valAt (.list items) index dec = dec x := by
  rw [valAt, Item.itemAt, hx]
  rfl

theorem asList_map {α β : Type} {enc : α → Item} {dec : Item → Except DecoderError β} {f : α → β}
    {xs : List α} (h : ∀ x ∈ xs, dec (enc x) = .ok (f x)) :
    (Item.list (xs.map enc)).asList dec = .ok (xs.map f) := by
  induction xs with
  | nil => rfl
  | cons x xs ih =>
    have hxs : (Item.list (xs.map enc)).asList dec = .ok (xs.map f) :=
      ih fun y hy => h y (List.mem_cons_of_mem _ hy)
    simp only [Item.asList, List.map_cons, List.mapM_cons, h x List.mem_cons_self, except_ok_bind] at hxs ⊢
    rw [hxs]
    rfl

theorem length_encode_uint_le {n : Nat} (h : n < 2 ^ 256) : (encode (uint n)).length ≤ 41 := by
  have hk : (natBytes n).length ≤ 32 := length_natBytes_le (by simpa using h)
  have := length_encode_bytes_le (b := natBytes n) (by omega)
  rw [uint]
  omega

theorem length_encode_hash_le (n : Nat) {size : Nat} (h : size < 2 ^ 64) :
    (encode (Rlp.hash n size)).length ≤ size + 9 := by
  have := length_encode_bytes_le (b := Word.toBytes n size) (by rw [Word.length_toBytes]; exact h)
  rwa [Word.length_toBytes] at this

end Rlp

end Cita
