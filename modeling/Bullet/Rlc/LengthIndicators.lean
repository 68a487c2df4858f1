import Bullet.Lib.BitFields

/-! # Extension bits and length indicators

Both RLC headers end in a list of extension bits and length indicators of eleven bits. Two entries
take three bytes, a last single entry takes two, with four bits of padding. Each extension bit says
whether another entry follows the one it stands before.
-/

namespace Bullet.Rlc

open Lib.BitFields

def DATA_FIELD_FOLLOWS : ℕ := 0
def E_LI_FIELDS_FOLLOWS : ℕ := 1

/-- `WriteU8` keeps the low byte. -/
def WriteU8 (v : ℕ) : UInt8 := UInt8.ofNat v

/-- The loop of `Serialize`, from the second extension bit on. -/
def serializeLengthIndicators : List ℕ → List ℕ → List UInt8
  | oddE :: evenE :: es, oddLi :: evenLi :: lis =>
    WriteU8 (((oddE <<< 7) &&& 0x80) ||| ((oddLi >>> 4) &&& 0x7F)) ::
    WriteU8 (((oddLi <<< 4) &&& 0xF0) ||| ((evenE <<< 3) &&& 0x08) ||| ((evenLi >>> 8) &&& 0x07)) ::
    WriteU8 (evenLi &&& 0xFF) :: serializeLengthIndicators es lis
  | oddE :: _, oddLi :: _ =>
    [WriteU8 (((oddE <<< 7) &&& 0x80) ||| ((oddLi >>> 4) &&& 0x7F)),
      WriteU8 ((oddLi <<< 4) &&& 0xF0)]
  | _, _ => []

/-- What the loop of `Deserialize` adds to the lists and the length of a header. -/
structure LengthFields where
  extensionBits : List ℕ
  lengthIndicators : List ℕ
  headerLength : ℕ
deriving DecidableEq, Repr

def LengthFields.push (f : LengthFields) (e li length : ℕ) : LengthFields :=
  ⟨f.extensionBits ++ [e], f.lengthIndicators ++ [li], (f.headerLength + length) % 65536⟩

/-- The loop of `Deserialize`, with the bytes it leaves; reading past the end aborts. -/
def deserializeLengthIndicators (f : LengthFields) :
    List UInt8 → Option (LengthFields × List UInt8)
  | byte_1 :: byte_2 :: start =>
    let oddE := (byte_1.toNat &&& 0x80) >>> 7
    let oddLi := ((byte_1.toNat &&& 0x7F) <<< 4) ||| ((byte_2.toNat &&& 0xF0) >>> 4)
    let f := f.push oddE oddLi 2
    if oddE = E_LI_FIELDS_FOLLOWS then
      match start with
      | byte_3 :: start =>
        let evenE := (byte_2.toNat &&& 0x08) >>> 3
        let evenLi := ((byte_2.toNat &&& 0x07) <<< 8) ||| (byte_3.toNat &&& 0xFF)
        let f := f.push evenE evenLi 1
        if evenE = E_LI_FIELDS_FOLLOWS then deserializeLengthIndicators f start
        else some (f, start)
      | [] => none
    else some (f, start)
  | _ => none

/-- The bytes of a number of entries of twelve bits. -/
def entryBytes (n : ℕ) : ℕ := (3 * n + 1) / 2

/-- The extension bits of a list of entries: one before each, and the closing one. -/
def entryBits : List ℕ → List ℕ
  | [] => [DATA_FIELD_FOLLOWS]
  | _ :: lis => E_LI_FIELDS_FOLLOWS :: entryBits lis

variable (e li e' li' : ℕ)

theorem toNat_WriteU8_pack {fs : List Field} (hFits : ∀ f ∈ fs, f.Fits)
    (hWidth : totalWidth fs = 8) : (WriteU8 (pack fs)).toNat = pack fs := by
  apply Nat.mod_eq_of_lt
  have hLt := pack_lt hFits
  rwa [hWidth] at hLt

theorem firstByte_eq : (WriteU8 (((e <<< 7) &&& 0x80) ||| ((li >>> 4) &&& 0x7F))).toNat =
    pack [low 1 e, low 7 (li >>> 4)] := by
  rw [← toNat_WriteU8_pack (by simp) rfl, pack_low_cons, pack_low]
  rfl

theorem secondByte_eq :
    (WriteU8 (((li <<< 4) &&& 0xF0) ||| ((e' <<< 3) &&& 0x08) ||| ((li' >>> 8) &&& 0x07))).toNat =
      pack [low 4 li, low 1 e', low 3 (li' >>> 8)] := by
  rw [← toNat_WriteU8_pack (by simp) rfl, pack_low_cons, pack_low_cons, pack_low, Nat.or_assoc]
  rfl

theorem thirdByte_eq : (WriteU8 (li' &&& 0xFF)).toNat = pack [low 8 li'] := by
  rw [← toNat_WriteU8_pack (by simp) rfl, pack_low]
  rfl

theorem secondByte_padding : WriteU8 ((li <<< 4) &&& 0xF0) =
    WriteU8 (((li <<< 4) &&& 0xF0) ||| ((0 <<< 3) &&& 0x08) ||| ((0 >>> 8) &&& 0x07)) := by
  simp

variable {li li'}

theorem read_oddLi (hLi : li < 2048) :
    ((pack [low 1 e, low 7 (li >>> 4)] &&& 0x7F) <<< 4) |||
      ((pack [low 4 li, low 1 e', low 3 (li' >>> 8)] &&& 0xF0) >>> 4) = li := by
  have hHigh := read_low [low 1 e] 7 (li >>> 4) [] (by simp) (by simp)
  have hLow := read_low [] 4 li [low 1 e', low 3 (li' >>> 8)] (by simp) (by simp)
  have hLt : li >>> 4 < 2 ^ 7 := by
    rw [Nat.shiftRight_eq_div_pow]
    omega
  rw [Nat.mod_eq_of_lt hLt] at hHigh
  calc
    _ = (li >>> 4) <<< 4 ||| li % 2 ^ 4 := congrArg₂ (fun a b => a <<< 4 ||| b) hHigh hLow
    _ = li := shiftRight_or_mod li 4

theorem read_evenLi (hLi : li' < 2048) :
    ((pack [low 4 li, low 1 e', low 3 (li' >>> 8)] &&& 0x07) <<< 8) |||
      (pack [low 8 li'] &&& 0xFF) = li' := by
  have hHigh := read_low [low 4 li, low 1 e'] 3 (li' >>> 8) [] (by simp) (by simp)
  have hLow := read_low [] 8 li' [] (by simp) (by simp)
  have hLt : li' >>> 8 < 2 ^ 3 := by
    rw [Nat.shiftRight_eq_div_pow]
    omega
  rw [Nat.mod_eq_of_lt hLt] at hHigh
  calc
    _ = (li' >>> 8) <<< 8 ||| li' % 2 ^ 8 := congrArg₂ (fun a b => a <<< 8 ||| b) hHigh hLow
    _ = li' := shiftRight_or_mod li' 8

theorem read_oddE : (pack [low 1 e, low 7 (li >>> 4)] &&& 0x80) >>> 7 = e % 2 :=
  read_low [] 1 e [low 7 (li >>> 4)] (by simp) (by simp)

theorem read_evenE :
    (pack [low 4 li, low 1 e', low 3 (li' >>> 8)] &&& 0x08) >>> 3 = e' % 2 :=
  read_low [low 4 li] 1 e' [low 3 (li' >>> 8)] (by simp) (by simp)

variable {e'} (f : LengthFields) (l : List UInt8)

theorem deserialize_last (hLi : li < 2048) :
    deserializeLengthIndicators f (serializeLengthIndicators [0] [li] ++ l) =
      some (f.push 0 li 2, l) := by
  have hBytes : serializeLengthIndicators [0] [li] ++ l =
      WriteU8 (((0 <<< 7) &&& 0x80) ||| ((li >>> 4) &&& 0x7F)) ::
        WriteU8 ((li <<< 4) &&& 0xF0) :: l := rfl
  rw [hBytes, deserializeLengthIndicators.eq_def, secondByte_padding]
  simp only [firstByte_eq, secondByte_eq, read_oddE, read_oddLi _ _ hLi]
  rfl

theorem deserialize_pair (es lis : List ℕ) (hLi : li < 2048) (hLi' : li' < 2048) (hE : e' < 2) :
    deserializeLengthIndicators f
        (serializeLengthIndicators (1 :: e' :: es) (li :: li' :: lis) ++ l) =
      if e' = 1 then
        deserializeLengthIndicators ((f.push 1 li 2).push e' li' 1)
          (serializeLengthIndicators es lis ++ l)
      else some ((f.push 1 li 2).push e' li' 1, serializeLengthIndicators es lis ++ l) := by
  rw [serializeLengthIndicators, List.cons_append, List.cons_append, List.cons_append,
    deserializeLengthIndicators.eq_def]
  simp only [firstByte_eq, secondByte_eq, thirdByte_eq, read_oddE, read_evenE,
    read_oddLi _ _ hLi, read_evenLi _ hLi', Nat.mod_eq_of_lt hE]
  rfl

@[simp] theorem entryBytes_one : entryBytes 1 = 2 := rfl

@[simp] theorem entryBytes_two : entryBytes 2 = 3 := rfl

theorem entryBytes_pair (n : ℕ) : entryBytes (n + 2) = 3 + entryBytes n := by
  unfold entryBytes
  omega

theorem length_entryBits (lis : List ℕ) : (entryBits lis).length = lis.length + 1 := by
  induction lis with
  | nil => rfl
  | cons _ lis ih => exact congrArg Nat.succ ih

theorem length_serializeLengthIndicators : ∀ (li : ℕ) (lis : List ℕ),
    (serializeLengthIndicators (entryBits lis) (li :: lis)).length = entryBytes (lis.length + 1)
  | _, [] => Eq.symm entryBytes_one
  | _, [_] => Eq.symm entryBytes_two
  | _, _ :: c :: lis => by
    have hRest := length_serializeLengthIndicators c lis
    simp only [entryBits, serializeLengthIndicators, List.length_cons] at hRest ⊢
    rw [hRest, entryBytes_pair]
    omega

/-- The loop of `Deserialize` reads the entries back and stops behind the last one. -/
theorem deserialize_serialize_lengthIndicators : ∀ (lis : List ℕ) (li : ℕ) (f : LengthFields),
    (∀ x ∈ li :: lis, x < 2048) →
      deserializeLengthIndicators f (serializeLengthIndicators (entryBits lis) (li :: lis) ++ l) =
        some (⟨f.extensionBits ++ entryBits lis, f.lengthIndicators ++ li :: lis,
          (f.headerLength + entryBytes (lis.length + 1)) % 65536⟩, l)
  | [], a, f, hLis => by
    rw [List.length_nil, Nat.zero_add, entryBytes_one]
    exact deserialize_last f l (hLis a (by simp))
  | [b], a, f, hLis => by
    have hPair := deserialize_pair f l [] [] (hLis a (by simp)) (hLis b (by simp)) Nat.two_pos
    rw [if_neg Nat.zero_ne_one] at hPair
    simp only [LengthFields.push, List.append_assoc, Nat.mod_add_mod, Nat.add_assoc] at hPair
    rw [List.length_singleton, entryBytes_two]
    exact hPair
  | b :: c :: lis, a, f, hLis => by
    have hTail : ∀ x ∈ c :: lis, x < 2048 := fun x hX => hLis x (by simp_all)
    have hPair := deserialize_pair f l (entryBits lis) (c :: lis) (hLis a (by simp))
      (hLis b (by simp)) Nat.one_lt_two
    rw [if_pos rfl, deserialize_serialize_lengthIndicators lis c _ hTail] at hPair
    simp only [LengthFields.push, List.append_assoc, Nat.mod_add_mod, Nat.add_assoc] at hPair
    have hBytes : entryBytes ((b :: c :: lis).length + 1) =
        2 + (1 + entryBytes (lis.length + 1)) := by
      have hTwo : entryBytes (lis.length + 1 + 1 + 1) = _ := entryBytes_pair (lis.length + 1)
      simp only [List.length_cons]
      omega
    rw [hBytes]
    exact hPair

end Bullet.Rlc
