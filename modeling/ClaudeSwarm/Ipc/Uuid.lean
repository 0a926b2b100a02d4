import ClaudeSwarm.Data.BigEndian
import Mathlib.Data.String.Basic

/-!
# The ids of envelopes

Model of `_uuid7` (`src/ipc/envelope.py`): 48 bits of the clock in milliseconds, the version 7, 12 random bits, the
variant 2, and 62 random bits, written as a UUID. The clock and the random bytes are arguments.

* `fromBytes_raw`: the sixteen bytes as one number.
* `decode_uuidText`: the text determines the number.
* `uuidText_lt`: the texts are ordered as the numbers.
* **`uuid7_spec`**: the text is canonical, its parts can be read off it, and a later millisecond has a later text.
-/

namespace ClaudeSwarm.Ipc.Uuid

open Data BigEndian

/-! ## Bytes and texts -/

/-- `n.to_bytes(w, "big")`, of the last `w` bytes; for `w = 8` also `struct.pack(">Q", n)`. -/
def toBytes (w n : Nat) : List UInt8 := (digits 256 w n).map UInt8.ofNat

/-- `int.from_bytes(bytes, "big")`. -/
def fromBytes (bytes : List UInt8) : Nat := ofDigits 256 (bytes.map UInt8.toNat)

/-- `'%032x' % n`, of a number of 128 bits. -/
def hex (n : Nat) : List Char := (digits 16 32 n).map Nat.digitChar

/-- `str(uuid.UUID(bytes=raw))`: `hex[:8]`, `hex[8:12]`, `hex[12:16]`, `hex[16:20]` and `hex[20:]` with dashes. -/
def uuidText (raw : List UInt8) : String := String.ofList (separate '-' [8, 4, 4, 4] (hex (fromBytes raw)))

/-- What `os.urandom(n)` returns. -/
abbrev Urandom (n : Nat) := { bytes : List UInt8 // bytes.length = n }

/-- The sixteen bytes that `_uuid7` packs. -/
def raw (unix_ms : Nat) (rand_bytes : Urandom 10) : List UInt8 :=
  let ts_bytes := (toBytes 8 unix_ms).drop 2
  let rand_a := fromBytes (rand_bytes.1.take 2)
  let byte_67 := toBytes 2 (0x7000 ||| (rand_a &&& 0x0FFF))
  let rand_b := fromBytes ((rand_bytes.1.drop 2).take 2)
  let byte_89 := toBytes 2 (0x8000 ||| (rand_b &&& 0x3FFF))
  let tail := rand_bytes.1.drop 4
  ts_bytes ++ byte_67 ++ byte_89 ++ tail

/-- `_uuid7`; `none` is the `struct.error` of a clock that does not fit into 64 bits. -/
def uuid7 (unix_ms : Nat) (rand_bytes : Urandom 10) : Option String :=
  if unix_ms < 2 ^ 64 then some (uuidText (raw unix_ms rand_bytes)) else none

/-! ## What a text says -/

/-- What a hexadecimal digit is worth. -/
def hexValue (c : Char) : Nat := if c.isDigit then c.toNat - 48 else c.toNat - 87

/-- The number that a UUID is the text of. -/
def decode (s : String) : Nat := ofDigits 16 ((s.toList.filter fun c => c ≠ '-').map hexValue)

/-- The parts of a UUID of this version. -/
structure Layout where
  unix_ms : Nat
  version : Nat
  rand_a : Nat
  variant : Nat
  rand_b : Nat
  deriving DecidableEq

/-- The parts read off the text. -/
def layout (s : String) : Layout :=
  ⟨decode s / 2 ^ 80, decode s / 2 ^ 76 % 2 ^ 4, decode s / 2 ^ 64 % 2 ^ 12, decode s / 2 ^ 62 % 2 ^ 2, decode s % 2 ^ 62⟩

/-- The 12 random bits after the version. -/
def randA (rand_bytes : Urandom 10) : Nat := fromBytes (rand_bytes.1.take 2) % 2 ^ 12

/-- The 62 random bits after the variant: 14 of the third and fourth byte, and the last six bytes. -/
def randB (rand_bytes : Urandom 10) : Nat :=
  fromBytes ((rand_bytes.1.drop 2).take 2) % 2 ^ 14 * 2 ^ 48 + fromBytes (rand_bytes.1.drop 4)

/-- A lower-case hexadecimal digit. -/
def isHex (c : Char) : Bool := c.isDigit || ('a' ≤ c && c ≤ 'f')

/-- Five groups of 8, 4, 4, 4 and 12 lower-case hexadecimal digits. -/
def Canonical (s : String) : Prop :=
  ∃ a b c d e : List Char, s.toList = a ++ '-' :: (b ++ '-' :: (c ++ '-' :: (d ++ '-' :: e))) ∧
    a.length = 8 ∧ b.length = 4 ∧ c.length = 4 ∧ d.length = 4 ∧ e.length = 12 ∧
    ∀ x ∈ a ++ b ++ c ++ d ++ e, isHex x = true

/-! ## The number of the bytes -/

theorem toNat_toBytes (w n : Nat) : (toBytes w n).map UInt8.toNat = digits 256 w n := by
  have hall : ∀ d ∈ digits 256 w n, UInt8.toNat (UInt8.ofNat d) = d := fun d hd =>
    UInt8.toNat_ofNat_of_lt (lt_of_mem_digits (by decide) hd)
  rw [toBytes, List.map_map]
  exact (List.map_congr_left hall).trans (List.map_id' _)

theorem fromBytes_toBytes (w n : Nat) : fromBytes (toBytes w n) = n % 256 ^ w := by
  rw [fromBytes, toNat_toBytes, ofDigits_digits]

theorem length_toBytes (w n : Nat) : (toBytes w n).length = w := by rw [toBytes, List.length_map, length_digits]

theorem fromBytes_append (l l' : List UInt8) : fromBytes (l ++ l') = fromBytes l * 256 ^ l'.length + fromBytes l' := by
  rw [fromBytes, List.map_append, ofDigits_append, List.length_map]
  rfl

theorem fromBytes_lt (l : List UInt8) : fromBytes l < 256 ^ l.length := by
  have hall : ∀ d ∈ l.map UInt8.toNat, d < 256 := fun d hd => by
    obtain ⟨byte, -, rfl⟩ := List.mem_map.mp hd
    exact byte.toNat_lt
  exact (ofDigits_lt hall).trans_eq (by rw [List.length_map])

/-- Six bytes of the clock: `struct.pack(">Q", unix_ms)[2:]`. -/
theorem drop_toBytes (n : Nat) : (toBytes 8 n).drop 2 = toBytes 6 n := by
  rw [toBytes, ← List.map_drop, drop_digits 256 2 6]
  rfl

/-- The version over twelve random bits. -/
theorem version_or (x : Nat) : 0x7000 ||| (x &&& 0x0FFF) = 7 * 2 ^ 12 + x % 2 ^ 12 := by
  have hand : x &&& 0x0FFF = x % 2 ^ 12 := Nat.and_two_pow_sub_one_eq_mod x 12
  rw [hand, Nat.mul_comm, Nat.two_pow_add_eq_or_of_lt (Nat.mod_lt x (by norm_num)) 7]

/-- The variant over fourteen random bits. -/
theorem variant_or (x : Nat) : 0x8000 ||| (x &&& 0x3FFF) = 2 * 2 ^ 14 + x % 2 ^ 14 := by
  have hand : x &&& 0x3FFF = x % 2 ^ 14 := Nat.and_two_pow_sub_one_eq_mod x 14
  rw [hand, Nat.mul_comm, Nat.two_pow_add_eq_or_of_lt (Nat.mod_lt x (by norm_num)) 2]

variable {unix_ms : Nat} {rand_bytes : Urandom 10}

theorem length_tail (rand_bytes : Urandom 10) : (rand_bytes.1.drop 4).length = 6 := by
  rw [List.length_drop, rand_bytes.2]

theorem randA_lt (rand_bytes : Urandom 10) : randA rand_bytes < 2 ^ 12 := Nat.mod_lt _ (by norm_num)

theorem randB_lt (rand_bytes : Urandom 10) : randB rand_bytes < 2 ^ 62 := by
  have htail := fromBytes_lt (rand_bytes.1.drop 4)
  have hb := Nat.mod_lt (fromBytes ((rand_bytes.1.drop 2).take 2)) (show 0 < 2 ^ 14 by norm_num)
  rw [length_tail] at htail
  rw [randB]
  norm_num at *
  omega

/-- **The sixteen bytes as one number.** -/
theorem fromBytes_raw (h : unix_ms < 2 ^ 48) (rand_bytes : Urandom 10) : fromBytes (raw unix_ms rand_bytes) =
    unix_ms * 2 ^ 80 + 7 * 2 ^ 76 + randA rand_bytes * 2 ^ 64 + 2 * 2 ^ 62 + randB rand_bytes := by
  have hms : unix_ms % 256 ^ 6 = unix_ms := Nat.mod_eq_of_lt (by norm_num at *; exact h)
  have ha := randA_lt rand_bytes
  have hb := Nat.mod_lt (fromBytes ((rand_bytes.1.drop 2).take 2)) (show 0 < 2 ^ 14 by norm_num)
  have hver : (7 * 2 ^ 12 + randA rand_bytes) % 256 ^ 2 = 7 * 2 ^ 12 + randA rand_bytes :=
    Nat.mod_eq_of_lt (by norm_num at *; omega)
  have hvar : (2 * 2 ^ 14 + fromBytes ((rand_bytes.1.drop 2).take 2) % 2 ^ 14) % 256 ^ 2 =
      2 * 2 ^ 14 + fromBytes ((rand_bytes.1.drop 2).take 2) % 2 ^ 14 := Nat.mod_eq_of_lt (by norm_num at *; omega)
  rw [raw, drop_toBytes, version_or, variant_or, fromBytes_append, fromBytes_append, fromBytes_append,
    fromBytes_toBytes, fromBytes_toBytes, fromBytes_toBytes, length_toBytes, length_toBytes, length_tail, hms, hvar]
  rw [randA] at hver
  rw [hver, randA, randB]
  ring

theorem raw_lt (h : unix_ms < 2 ^ 48) (rand_bytes : Urandom 10) : fromBytes (raw unix_ms rand_bytes) < 16 ^ 32 := by
  have ha := randA_lt rand_bytes
  have hb := randB_lt rand_bytes
  rw [fromBytes_raw h]
  norm_num at *
  omega

/-! ## The text -/

theorem digitChar_lt_of_lt : ∀ b < 16, ∀ a < b, Nat.digitChar a < Nat.digitChar b := by decide

theorem hexValue_digitChar : ∀ d < 16, hexValue (Nat.digitChar d) = d := by decide

theorem isHex_digitChar : ∀ d < 16, isHex (Nat.digitChar d) = true := by decide

theorem length_hex (n : Nat) : (hex n).length = 32 := by rw [hex, List.length_map, length_digits]

theorem isHex_of_mem_hex {n : Nat} {c : Char} (h : c ∈ hex n) : isHex c = true := by
  obtain ⟨d, hd, rfl⟩ := List.mem_map.mp h
  exact isHex_digitChar d (lt_of_mem_digits (by decide) hd)

theorem dash_not_mem_hex (n : Nat) : '-' ∉ hex n := fun h => absurd (isHex_of_mem_hex h) (by decide)

theorem toList_uuidText (bytes : List UInt8) :
    (uuidText bytes).toList = separate '-' [8, 4, 4, 4] (hex (fromBytes bytes)) := String.toList_ofList

/-- **The text determines the number.** -/
theorem decode_uuidText {bytes : List UInt8} (h : fromBytes bytes < 16 ^ 32) :
    decode (uuidText bytes) = fromBytes bytes := by
  have hvalues : (hex (fromBytes bytes)).map hexValue = digits 16 32 (fromBytes bytes) := by
    rw [hex, List.map_map]
    exact (List.map_congr_left fun d hd => hexValue_digitChar d (lt_of_mem_digits (by decide) hd)).trans
      (List.map_id' _)
  rw [decode, toList_uuidText, filter_separate _ (dash_not_mem_hex _), hvalues, ofDigits_digits, Nat.mod_eq_of_lt h]

theorem canonical_uuidText (bytes : List UInt8) : Canonical (uuidText bytes) := by
  have hlen := length_hex (fromBytes bytes)
  refine ⟨(hex (fromBytes bytes)).take 8, ((hex (fromBytes bytes)).drop 8).take 4,
    (((hex (fromBytes bytes)).drop 8).drop 4).take 4, ((((hex (fromBytes bytes)).drop 8).drop 4).drop 4).take 4,
    ((((hex (fromBytes bytes)).drop 8).drop 4).drop 4).drop 4, toList_uuidText bytes, ?_, ?_, ?_, ?_, ?_, fun x hx => ?_⟩
  · rw [List.length_take, hlen]
    rfl
  · rw [List.length_take, List.length_drop, hlen]
    rfl
  · rw [List.length_take, List.length_drop, List.length_drop, hlen]
    rfl
  · rw [List.length_take, List.length_drop, List.length_drop, List.length_drop, hlen]
    rfl
  · rw [List.length_drop, List.length_drop, List.length_drop, List.length_drop, hlen]
  · rw [List.append_assoc, List.take_append_drop, List.append_assoc, List.take_append_drop, List.append_assoc,
      List.take_append_drop, List.take_append_drop] at hx
    exact isHex_of_mem_hex hx

/-- **The texts are ordered as the numbers.** -/
theorem uuidText_lt {bytes bytes' : List UInt8} (h : fromBytes bytes < fromBytes bytes')
    (hlt : fromBytes bytes' < 16 ^ 32) : uuidText bytes < uuidText bytes' := by
  rw [String.lt_iff_toList_lt, toList_uuidText, toList_uuidText]
  have hlen : (hex (fromBytes bytes)).length = (hex (fromBytes bytes')).length := by rw [length_hex, length_hex]
  refine separate_lt '-' _ hlen (map_lt (fun a _ a' ha' hlt => ?_) (by simp) (digits_lt h hlt))
  exact digitChar_lt_of_lt a' (lt_of_mem_digits (by decide) ha') a hlt

/-- The parts of the text are what was packed. -/
theorem layout_uuidText (h : unix_ms < 2 ^ 48) (rand_bytes : Urandom 10) :
    layout (uuidText (raw unix_ms rand_bytes)) = ⟨unix_ms, 7, randA rand_bytes, 2, randB rand_bytes⟩ := by
  have ha := randA_lt rand_bytes
  have hb := randB_lt rand_bytes
  rw [layout, decode_uuidText (raw_lt h rand_bytes), fromBytes_raw h]
  norm_num at *
  refine ⟨?_, ?_, ?_, ?_, ?_⟩ <;> omega

/-- A later millisecond has a greater number, whatever the random bytes. -/
theorem fromBytes_raw_lt {later : Nat} (h : unix_ms < later) (hlater : later < 2 ^ 48) (rand_bytes rand' : Urandom 10) :
    fromBytes (raw unix_ms rand_bytes) < fromBytes (raw later rand') := by
  have ha := randA_lt rand_bytes
  have hb := randB_lt rand_bytes
  rw [fromBytes_raw (h.trans hlater), fromBytes_raw hlater]
  norm_num at *
  omega

/-- **The id of an envelope, at a time below 2⁴⁸ milliseconds: a canonical UUID of version 7 and variant 2, from which the
time and the 74 random bits can be read; and a later time has a later text, whatever the random bytes.** -/
theorem uuid7_spec (h : unix_ms < 2 ^ 48) (rand_bytes : Urandom 10) :
    ∃ s, uuid7 unix_ms rand_bytes = some s ∧ Canonical s ∧
      layout s = ⟨unix_ms, 7, randA rand_bytes, 2, randB rand_bytes⟩ ∧
      ∀ later < 2 ^ 48, unix_ms < later → ∀ (rand' : Urandom 10) (s' : String), uuid7 later rand' = some s' → s < s' := by
  refine ⟨uuidText (raw unix_ms rand_bytes), if_pos (h.trans (by norm_num)), canonical_uuidText _,
    layout_uuidText h rand_bytes, fun later hlater hlt rand' s' hs' => ?_⟩
  rw [uuid7, if_pos (hlater.trans (by norm_num))] at hs'
  rw [← Option.some.inj hs']
  exact uuidText_lt (fromBytes_raw_lt hlt hlater rand_bytes rand') (raw_lt hlater rand')

/-- One millisecond after the epoch, with random bytes all of whose bits are set. -/
theorem uuid7_one : ∃ s, uuid7 1 ⟨List.replicate 10 255, rfl⟩ = some s ∧
    layout s = ⟨1, 7, 2 ^ 12 - 1, 2, 2 ^ 62 - 1⟩ := by
  obtain ⟨s, hs, -, hlayout, -⟩ := @uuid7_spec 1 (by norm_num) ⟨List.replicate 10 255, rfl⟩
  have ha : randA ⟨List.replicate 10 255, rfl⟩ = 2 ^ 12 - 1 := by decide
  have hb : randB ⟨List.replicate 10 255, rfl⟩ = 2 ^ 62 - 1 := by decide
  rw [ha, hb] at hlayout
  exact ⟨s, hs, hlayout⟩

end ClaudeSwarm.Ipc.Uuid
