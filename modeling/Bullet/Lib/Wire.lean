import Mathlib.Algebra.Order.Group.Nat
import Mathlib.Data.List.Basic
import Mathlib.Data.Nat.Basic

/-! # Byte formats

Words are written with their highest byte first. A reader takes bytes from the front of its input
and fails on an input that is too short; `Reads` says that it reads back what was written, whatever
follows.
-/

namespace Bullet.Lib.Wire

/-- The `n` bytes of a number, the highest first. -/
def bytes : ℕ → ℕ → List UInt8
  | 0, _ => []
  | n + 1, v => UInt8.ofNat (v / 256 ^ n) :: bytes n v

def ofBytes (l : List UInt8) : ℕ :=
  l.foldl (fun v b => v * 256 + b.toNat) 0

abbrev Reader (α : Type) := StateT (List UInt8) Option α

def word (n : ℕ) : Reader ℕ := fun l =>
  if n ≤ l.length then some (ofBytes (l.take n), l.drop n) else none

def readU8 : Reader UInt8 := UInt8.ofNat <$> word 1
def readU16 : Reader UInt16 := UInt16.ofNat <$> word 2
def readU32 : Reader UInt32 := UInt32.ofNat <$> word 4
def readU64 : Reader UInt64 := UInt64.ofNat <$> word 8

def writeU8 (v : UInt8) : List UInt8 := bytes 1 v.toNat
def writeU16 (v : UInt16) : List UInt8 := bytes 2 v.toNat
def writeU32 (v : UInt32) : List UInt8 := bytes 4 v.toNat
def writeU64 (v : UInt64) : List UInt8 := bytes 8 v.toNat

def readList {α : Type} (r : Reader α) : ℕ → Reader (List α)
  | 0 => pure []
  | n + 1 => do
    let a ← r
    let l ← readList r n
    pure (a :: l)

/-- `r` reads `a` from `w`, and leaves what follows. -/
def Reads {α : Type} (r : Reader α) (w : List UInt8) (a : α) : Prop :=
  ∀ l, r (w ++ l) = some (a, l)

variable {α β : Type} {r : Reader α} {f : α → Reader β} {w v : List UInt8} {a : α} {b : β}

@[simp] theorem length_bytes (n v : ℕ) : (bytes n v).length = n := by
  induction n with
  | zero => rfl
  | succ n ih => exact congrArg Nat.succ ih

@[simp] theorem length_writeU8 (x : UInt8) : (writeU8 x).length = 1 := length_bytes ..
@[simp] theorem length_writeU16 (x : UInt16) : (writeU16 x).length = 2 := length_bytes ..
@[simp] theorem length_writeU32 (x : UInt32) : (writeU32 x).length = 4 := length_bytes ..
@[simp] theorem length_writeU64 (x : UInt64) : (writeU64 x).length = 8 := length_bytes ..

theorem foldl_bytes (n v i : ℕ) :
    (bytes n v).foldl (fun v b => v * 256 + b.toNat) i = i * 256 ^ n + v % 256 ^ n := by
  induction n generalizing i with
  | zero => simp [bytes, Nat.mod_one]
  | succ n ih =>
    have hByte : (UInt8.ofNat (v / 256 ^ n)).toNat = v / 256 ^ n % 256 := rfl
    rw [bytes, List.foldl_cons, ih, hByte, Nat.pow_succ, Nat.mod_mul, Nat.add_mul, Nat.add_assoc,
      Nat.mul_assoc, Nat.mul_comm 256, Nat.mul_comm (v / 256 ^ n % 256), Nat.add_comm (v % 256 ^ n)]

theorem reads_word {n v : ℕ} (h : v < 256 ^ n) : Reads (word n) (bytes n v) v := by
  intro l
  have hLength : n ≤ (bytes n v ++ l).length := by simp
  have hTake : (bytes n v ++ l).take n = bytes n v := by
    rw [List.take_append_of_le_length (length_bytes n v).ge, List.take_of_length_le (by simp)]
  have hDrop : (bytes n v ++ l).drop n = l := by
    rw [List.drop_append_of_le_length (length_bytes n v).ge, List.drop_of_length_le (by simp),
      List.nil_append]
  rw [word, if_pos hLength, hTake, hDrop, ofBytes, foldl_bytes, Nat.zero_mul, Nat.zero_add,
    Nat.mod_eq_of_lt h]

namespace Reads

theorem pure (a : α) : Reads (Pure.pure a) [] a := fun _ => rfl

theorem bind (h : Reads r w a) (hNext : Reads (f a) v b) : Reads (r >>= f) (w ++ v) b := by
  intro l
  change (r (w ++ v ++ l)).bind (fun p => f p.1 p.2) = some (b, l)
  rw [List.append_assoc, h]
  exact hNext l

/-- The last word of a record. -/
theorem last {g : α → β} (h : Reads r w a) : Reads (r >>= fun x => Pure.pure (g x)) w (g a) := by
  have hBind := h.bind (f := fun x => Pure.pure (g x)) (Reads.pure (g a))
  rwa [List.append_nil] at hBind

theorem map {g : α → β} (h : Reads r w a) : Reads (g <$> r) w (g a) := by
  intro l
  change (r (w ++ l)).bind (fun p => some (g p.1, p.2)) = some (g a, l)
  rw [h]
  rfl

end Reads

theorem reads_u8 (x : UInt8) : Reads readU8 (writeU8 x) x := by
  have h := (reads_word (n := 1) x.toNat_lt).map (g := UInt8.ofNat)
  rwa [UInt8.ofNat_toNat] at h

theorem reads_u16 (x : UInt16) : Reads readU16 (writeU16 x) x := by
  have h := (reads_word (n := 2) x.toNat_lt).map (g := UInt16.ofNat)
  rwa [UInt16.ofNat_toNat] at h

theorem reads_u32 (x : UInt32) : Reads readU32 (writeU32 x) x := by
  have h := (reads_word (n := 4) x.toNat_lt).map (g := UInt32.ofNat)
  rwa [UInt32.ofNat_toNat] at h

theorem reads_u64 (x : UInt64) : Reads readU64 (writeU64 x) x := by
  have h := (reads_word (n := 8) x.toNat_lt).map (g := UInt64.ofNat)
  rwa [UInt64.ofNat_toNat] at h

theorem reads_list {write : α → List UInt8} {l : List α} (h : ∀ a ∈ l, Reads r (write a) a) :
    Reads (readList r l.length) (l.flatMap write) l := by
  induction l with
  | nil => exact Reads.pure []
  | cons a l ih =>
    have hRest := ih fun b hb => h b (List.mem_cons_of_mem a hb)
    have hCons := (h a List.mem_cons_self).bind
      (f := fun a => readList r l.length >>= fun l => Pure.pure (a :: l))
      (hRest.bind (Reads.pure (a :: l)))
    rwa [List.append_nil] at hCons

theorem length_flatMap_of_forall {write : α → List UInt8} {n : ℕ} {l : List α}
    (h : ∀ a, (write a).length = n) : (l.flatMap write).length = n * l.length := by
  induction l with
  | nil => rfl
  | cons a l ih =>
    rw [List.flatMap_cons, List.length_append, h, ih, List.length_cons, Nat.mul_succ, Nat.add_comm]

end Bullet.Lib.Wire
