import Mathlib.Algebra.GroupWithZero.Nat
import Mathlib.Algebra.Order.Group.Nat
import Mathlib.Data.List.Basic

/-! # Words packed from bit fields

A word is packed from fields of given widths, the highest one first, by shifting each into place
and joining them bitwise. Fields that fit their widths do not meet, so the word is their sum, each
field is read back by a shift and a mask, and equal words of one layout have equal fields.
-/

namespace Bullet.Lib.BitFields

structure Field where
  width : ℕ
  value : ℕ
deriving DecidableEq

def Field.Fits (f : Field) : Prop :=
  f.value < 2 ^ f.width

def totalWidth (fs : List Field) : ℕ :=
  (fs.map Field.width).sum

@[simp] theorem totalWidth_cons (f : Field) (fs : List Field) :
    totalWidth (f :: fs) = f.width + totalWidth fs :=
  List.sum_cons

theorem totalWidth_append (fs gs : List Field) :
    totalWidth (fs ++ gs) = totalWidth fs + totalWidth gs := by
  rw [totalWidth, List.map_append, List.sum_append]
  rfl

def pack : List Field → ℕ
  | [] => 0
  | f :: fs => f.value <<< totalWidth fs ||| pack fs

variable {f : Field} {fs gs : List Field}

theorem pack_lt (hFits : ∀ g ∈ fs, g.Fits) : pack fs < 2 ^ totalWidth fs := by
  induction fs with
  | nil => exact Nat.one_pos
  | cons f fs ih =>
    have hRest := ih fun g hg => hFits g (List.mem_cons_of_mem f hg)
    apply Nat.or_lt_two_pow
    · calc
        f.value <<< totalWidth fs = f.value * 2 ^ totalWidth fs := Nat.shiftLeft_eq ..
        _ < 2 ^ f.width * 2 ^ totalWidth fs :=
          Nat.mul_lt_mul_of_pos_right (hFits f List.mem_cons_self) (Nat.two_pow_pos _)
        _ = 2 ^ totalWidth (f :: fs) := by rw [totalWidth_cons, Nat.pow_add]
    · rw [totalWidth_cons]
      exact hRest.trans_le (Nat.pow_le_pow_right Nat.two_pos (Nat.le_add_left ..))

theorem pack_cons (hFits : ∀ g ∈ fs, g.Fits) :
    pack (f :: fs) = f.value * 2 ^ totalWidth fs + pack fs := by
  rw [pack, ← Nat.shiftLeft_add_eq_or_of_lt (pack_lt hFits), Nat.shiftLeft_eq]

theorem pack_shiftRight (hFits : ∀ g ∈ fs, g.Fits) :
    pack (f :: fs) >>> totalWidth fs = f.value := by
  rw [pack_cons hFits, Nat.shiftRight_eq_div_pow, Nat.mul_comm,
    Nat.mul_add_div (Nat.two_pow_pos _), Nat.div_eq_of_lt (pack_lt hFits), Nat.add_zero]

theorem pack_mod (hFits : ∀ g ∈ fs, g.Fits) :
    pack (f :: fs) % 2 ^ totalWidth fs = pack fs := by
  rw [pack_cons hFits, Nat.mul_comm, Nat.mul_add_mod, Nat.mod_eq_of_lt (pack_lt hFits)]

/-- A field is read back by a shift below it and a mask of its width, whatever is above it. -/
theorem pack_append_read (hFits : ∀ g ∈ f :: fs, g.Fits) (hAbove : ∀ g ∈ gs, g.Fits) :
    pack (gs ++ f :: fs) >>> totalWidth fs % 2 ^ f.width = f.value := by
  have hRest : ∀ g ∈ fs, g.Fits := fun g hg => hFits g (List.mem_cons_of_mem f hg)
  have hHere : f.value < 2 ^ f.width := hFits f List.mem_cons_self
  induction gs with
  | nil => rw [List.nil_append, pack_shiftRight hRest, Nat.mod_eq_of_lt hHere]
  | cons g gs ih =>
    have hBelow : ∀ k ∈ gs ++ f :: fs, k.Fits := by
      intro k hk
      rcases List.mem_append.mp hk with hk | hk
      · exact hAbove k (List.mem_cons_of_mem g hk)
      · exact hFits k hk
    have hSplit : totalWidth (gs ++ f :: fs) = totalWidth gs + f.width + totalWidth fs := by
      rw [totalWidth_append, totalWidth_cons, Nat.add_assoc]
    rw [List.cons_append, pack_cons hBelow, hSplit, Nat.pow_add, ← Nat.mul_assoc,
      Nat.shiftRight_eq_div_pow, Nat.add_comm, Nat.add_mul_div_right _ _ (Nat.two_pow_pos _),
      ← Nat.shiftRight_eq_div_pow, Nat.pow_add, ← Nat.mul_assoc, Nat.add_mul_mod_self_right]
    exact ih fun k hk => hAbove k (List.mem_cons_of_mem g hk)

/-- Equal words of one layout have equal fields. -/
theorem pack_injective (hWidths : fs.map Field.width = gs.map Field.width)
    (hFs : ∀ f ∈ fs, f.Fits) (hGs : ∀ g ∈ gs, g.Fits) (hPack : pack fs = pack gs) : fs = gs := by
  induction fs generalizing gs with
  | nil =>
    rcases gs with _ | ⟨g, gs⟩
    · rfl
    · cases hWidths
  | cons f fs ih =>
    rcases gs with _ | ⟨g, gs⟩
    · cases hWidths
    have hHead : f.width = g.width := List.head_eq_of_cons_eq hWidths
    have hTail : fs.map Field.width = gs.map Field.width := List.tail_eq_of_cons_eq hWidths
    have hTotal : totalWidth fs = totalWidth gs := congrArg List.sum hTail
    have hFs' : ∀ g ∈ fs, g.Fits := fun g hg => hFs g (List.mem_cons_of_mem f hg)
    have hGs' : ∀ k ∈ gs, k.Fits := fun k hk => hGs k (List.mem_cons_of_mem g hk)
    have hValue : f.value = g.value := by
      rw [← pack_shiftRight hFs', ← pack_shiftRight hGs', hPack, hTotal]
    have hRest : pack fs = pack gs := by
      rw [← pack_mod hFs', ← pack_mod hGs', hPack, hTotal]
    have hField : f = g := by
      cases f
      cases g
      simp_all
    rw [hField, ih hTail hFs' hGs' hRest]

/-- The low bits of a word, as a field. -/
def low (w v : ℕ) : Field := ⟨w, v % 2 ^ w⟩

@[simp] theorem low_fits (w v : ℕ) : (low w v).Fits := Nat.mod_lt _ (Nat.two_pow_pos w)

/-- The mask of `w` bits over the `k` lowest ones. -/
def mask (w k : ℕ) : ℕ := (2 ^ w - 1) <<< k

theorem shiftLeft_and_mask (v w k : ℕ) : v <<< k &&& mask w k = (low w v).value <<< k := by
  rw [mask, ← Nat.shiftLeft_and_distrib, Nat.and_two_pow_sub_one_eq_mod]
  rfl

theorem and_mask_shiftRight (v w k : ℕ) : (v &&& mask w k) >>> k = v >>> k % 2 ^ w := by
  rw [mask, Nat.shiftRight_and_distrib, Nat.shiftLeft_shiftRight, Nat.and_two_pow_sub_one_eq_mod]

theorem pack_low_cons (w v : ℕ) (fs : List Field) :
    pack (low w v :: fs) = (v <<< totalWidth fs &&& mask w (totalWidth fs)) ||| pack fs := by
  rw [shiftLeft_and_mask]
  rfl

theorem pack_low (w v : ℕ) : pack [low w v] = v &&& mask w 0 := by
  rw [pack_low_cons, pack, Nat.or_zero]
  rfl

/-- A masked shift reads a field back, whatever is above and below it. -/
theorem read_low (gs : List Field) (w v : ℕ) (fs : List Field) (hAbove : ∀ g ∈ gs, g.Fits)
    (hBelow : ∀ f ∈ fs, f.Fits) :
    (pack (gs ++ low w v :: fs) &&& mask w (totalWidth fs)) >>> totalWidth fs = v % 2 ^ w := by
  rw [and_mask_shiftRight]
  exact pack_append_read (f := low w v) (List.forall_mem_cons.mpr ⟨low_fits w v, hBelow⟩) hAbove

/-- A word cut in two is joined again. -/
theorem shiftRight_or_mod (v k : ℕ) : (v >>> k) <<< k ||| v % 2 ^ k = v := by
  rw [← Nat.shiftLeft_add_eq_or_of_lt (Nat.mod_lt _ (Nat.two_pow_pos k)),
    Nat.shiftRight_eq_div_pow, Nat.shiftLeft_eq, Nat.div_add_mod']

end Bullet.Lib.BitFields
