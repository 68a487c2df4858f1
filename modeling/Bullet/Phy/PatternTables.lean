import Bullet.Phy.PatternSearch
import Mathlib.Order.ConditionallyCompleteLattice.Basic
import Mathlib.Order.Lattice.Nat

/-! # What the tables of a pattern hold

Slot by slot, each table gains one column entry. The delays in the tables are the least ones that the
searches find.
-/

namespace Bullet.Phy

open Lib Lib.CyclicTable

/-- The delay from the DCI of slot `i` to the slot. -/
noncomputable def dciDelay (pattern : List LteNrTddSlotType) (n i : ℕ) : ℕ :=
  sInf {k : ℕ | n ≤ k ∧ SlotAt pattern LteNrTddSlotType.dlCapable (i - k)}

/-- The delay from slot `i` to its feedback. -/
noncomputable def harqDelay (pattern : List LteNrTddSlotType) (n i : ℕ) : ℕ :=
  sInf {k : ℕ | n ≤ k ∧ SlotAt pattern LteNrTddSlotType.ulCapable (i + k)}

/-- Both directions occur, and the delays can be counted with. -/
structure Searchable (pattern : List LteNrTddSlotType) (d : Delays) : Prop where
  n0 : InRange pattern d.n0
  n1 : InRange pattern d.n1
  n2 : InRange pattern d.n2
  latency : InRange pattern d.l1l2CtrlLatency
  dl : ∃ t ∈ pattern, t.dlCapable = true
  ul : ∃ t ∈ pattern, t.ulCapable = true

instance (pattern : List LteNrTddSlotType) (d : Delays) : Decidable (Searchable pattern d) :=
  decidable_of_iff (InRange pattern d.n0 ∧ InRange pattern d.n1 ∧ InRange pattern d.n2 ∧
      InRange pattern d.l1l2CtrlLatency ∧ (∃ t ∈ pattern, t.dlCapable = true) ∧
      ∃ t ∈ pattern, t.ulCapable = true)
    ⟨fun ⟨n0, n1, n2, latency, dl, ul⟩ => ⟨n0, n1, n2, latency, dl, ul⟩,
      fun ⟨n0, n1, n2, latency, dl, ul⟩ => ⟨n0, n1, n2, latency, dl, ul⟩⟩

/-- The slots of some kind among the first `j`. -/
def slotsBelow (pattern : List LteNrTddSlotType) (kind : LteNrTddSlotType → Bool) (j : ℕ) : List ℕ :=
  (List.range j).filter fun i => (pattern[i]?).any kind

/-- The tables hold the slots listed. -/
structure Filled (pattern : List LteNrTddSlotType) (d : Delays) (ul dl fb : List ℕ)
    (t : PatternTables) : Prop where
  toSendUl : ∀ r, t.toSendUl.read r = column pattern.length ul (dciDelay pattern d.n2) r
  generateUl : ∀ r, t.generateUl.read r =
    column pattern.length ul (fun i => dciDelay pattern d.n2 i + d.l1l2CtrlLatency) r
  toSendDl : ∀ r, t.toSendDl.read r = column pattern.length dl (dciDelay pattern d.n0) r
  generateDl : ∀ r, t.generateDl.read r =
    column pattern.length dl (fun i => dciDelay pattern d.n0 i + d.l1l2CtrlLatency) r
  feedback : ∀ i, t.dlHarqfbPosition.lookup i =
    if i ∈ fb then some (harqDelay pattern d.n1 i) else none

variable {pattern : List LteNrTddSlotType} {kind : LteNrTddSlotType → Bool} {d : Delays}
  {ul dl fb : List ℕ} {t : PatternTables} {n i fuel : ℕ}

theorem dciDelay_spec (hDl : ∃ t ∈ pattern, t.dlCapable = true) (n i : ℕ) :
    IsLeast {k : ℕ | n ≤ k ∧ SlotAt pattern LteNrTddSlotType.dlCapable (i - k)}
      (dciDelay pattern n i) ∧ dciDelay pattern n i < n + pattern.length := by
  obtain ⟨t, ht, hKind⟩ := hDl
  obtain ⟨k, hLeast, hBound⟩ := exists_before ht hKind i n
  rw [dciDelay, hLeast.csInf_eq]
  exact ⟨hLeast, hBound⟩

theorem harqDelay_spec (hUl : ∃ t ∈ pattern, t.ulCapable = true) (n i : ℕ) :
    IsLeast {k : ℕ | n ≤ k ∧ SlotAt pattern LteNrTddSlotType.ulCapable (i + k)}
      (harqDelay pattern n i) ∧ harqDelay pattern n i < n + pattern.length := by
  obtain ⟨t, ht, hKind⟩ := hUl
  obtain ⟨k, hLeast, hBound⟩ := exists_after ht hKind i n
  rw [harqDelay, hLeast.csInf_eq]
  exact ⟨hLeast, hBound⟩

theorem modulo_back (hRange : InRange pattern n) (hLatency : InRange pattern d.l1l2CtrlLatency)
    (hPos : 0 < pattern.length) (i k : ℕ) :
    modulo ((back pattern.length i k : ℤ) - d.l1l2CtrlLatency) (patternSize pattern) =
      some (back pattern.length i (k + d.l1l2CtrlLatency)) := by
  have hL : d.l1l2CtrlLatency + 2 * pattern.length < 2 ^ 31 := hLatency
  rw [hRange.patternSize, modulo_eq hPos hRange.length (by omega), ← back_back hPos]
  rfl

theorem generateDciMaps_of {dciSlot : DciKPair} {difference : ℤ} {indexGen : ℕ}
    {toSend generate : DciTable} {latency : ℕ} (hSlot : returnDciSlot fuel pattern i n = some dciSlot)
    (hDifference : int32 (toInt dciSlot.indexDci - toInt latency) = some difference)
    (hIndex : modulo difference (patternSize pattern) = some indexGen) :
    generateDciMaps fuel pattern toSend generate i n latency =
      some (toSend.pushBack dciSlot.indexDci dciSlot.k,
        generate.pushBack indexGen ((dciSlot.k + latency) % 2 ^ 32)) := by
  rw [generateDciMaps, hSlot, Option.bind_eq_bind, Option.bind_some, hDifference,
    Option.bind_eq_bind, Option.bind_some, hIndex]
  rfl

theorem generateDciMaps_eq (hRange : InRange pattern n) (hLatency : InRange pattern d.l1l2CtrlLatency)
    (hDl : ∃ t ∈ pattern, t.dlCapable = true) (hi : i < pattern.length)
    (hFuel : pattern.length ≤ fuel) (toSend generate : DciTable) :
    generateDciMaps fuel pattern toSend generate i n d.l1l2CtrlLatency =
      some (toSend.pushBack (back pattern.length i (dciDelay pattern n i)) (dciDelay pattern n i),
        generate.pushBack
          (back pattern.length i (dciDelay pattern n i + d.l1l2CtrlLatency))
          (dciDelay pattern n i + d.l1l2CtrlLatency)) := by
  obtain ⟨hLeast, hBound⟩ := dciDelay_spec hDl n i
  have hLength : 0 < pattern.length := Nat.zero_lt_of_lt hi
  have hN : n + 2 * pattern.length < 2 ^ 31 := hRange
  have hL : d.l1l2CtrlLatency + 2 * pattern.length < 2 ^ 31 := hLatency
  have hBack := back_lt (i := i) (k := dciDelay pattern n i) hLength
  have hSum : (dciDelay pattern n i + d.l1l2CtrlLatency) % 2 ^ 32 =
      dciDelay pattern n i + d.l1l2CtrlLatency := Nat.mod_eq_of_lt (by omega)
  have hDifference : int32 (toInt (back pattern.length i (dciDelay pattern n i)) -
      toInt d.l1l2CtrlLatency) =
        some ((back pattern.length i (dciDelay pattern n i) : ℤ) - d.l1l2CtrlLatency) := by
    rw [toInt_eq (by omega) (by omega), toInt_eq (by omega) (by omega),
      int32_eq (by omega) (by omega)]
  rw [generateDciMaps_of (returnDciSlot_eq hRange hi hLeast hBound hFuel) hDifference
    (modulo_back hRange hLatency hLength i _), hSum]

namespace Filled

theorem addUl (h : Filled pattern d ul dl fb t) (hSearch : Searchable pattern d)
    (hi : i < pattern.length) (hFuel : pattern.length ≤ fuel) :
    ∃ t', t.addUl fuel pattern d i = some t' ∧ Filled pattern d (ul ++ [i]) dl fb t' := by
  rw [PatternTables.addUl, generateDciMaps_eq hSearch.n2 hSearch.latency hSearch.dl hi hFuel]
  refine ⟨_, rfl, ?_, ?_, h.toSendDl, h.generateDl, h.feedback⟩
  · intro r
    rw [KeyedLists.read_pushBack, column_append_singleton, h.toSendUl]
  · intro r
    rw [KeyedLists.read_pushBack, column_append_singleton, h.generateUl]

theorem addDl (h : Filled pattern d ul dl fb t) (hSearch : Searchable pattern d)
    (hi : i < pattern.length) (hFuel : pattern.length ≤ fuel) :
    ∃ t', t.addDl fuel pattern d i = some t' ∧ Filled pattern d ul (dl ++ [i]) fb t' := by
  rw [PatternTables.addDl, generateDciMaps_eq hSearch.n0 hSearch.latency hSearch.dl hi hFuel]
  refine ⟨_, rfl, h.toSendUl, h.generateUl, ?_, ?_, h.feedback⟩
  · intro r
    rw [KeyedLists.read_pushBack, column_append_singleton, h.toSendDl]
  · intro r
    rw [KeyedLists.read_pushBack, column_append_singleton, h.generateDl]

theorem addFeedback (h : Filled pattern d ul dl fb t) (hSearch : Searchable pattern d)
    (hi : i < pattern.length) (hFuel : pattern.length ≤ fuel) :
    ∃ t', t.addFeedback fuel pattern d i = some t' ∧ Filled pattern d ul dl (fb ++ [i]) t' := by
  obtain ⟨hLeast, hBound⟩ := harqDelay_spec hSearch.ul d.n1 i
  have hN : d.n1 + 2 * pattern.length < 2 ^ 31 := hSearch.n1
  rw [PatternTables.addFeedback, returnHarqSlot_eq hSearch.n1 hi hLeast hBound hFuel]
  refine ⟨_, rfl, h.toSendUl, h.generateUl, h.toSendDl, h.generateDl, ?_⟩
  have hValue : ((harqDelay pattern d.n1 i : ℤ) % 2 ^ 32).toNat = harqDelay pattern d.n1 i := by
    omega
  intro j
  rw [hValue]
  simp only [List.mem_append, List.mem_singleton]
  split
  · next hMem =>
    have hOld : i ∈ fb := by
      by_contra hNot
      have hNone := h.feedback i
      rw [if_neg hNot, AList.lookup_eq_none] at hNone
      exact hNone hMem
    rw [h.feedback j]
    apply if_congr _ rfl rfl
    constructor
    · exact Or.inl
    · rintro (hj | rfl)
      · exact hj
      · exact hOld
  · rcases eq_or_ne j i with rfl | hNe
    · rw [AList.lookup_insert, if_pos (Or.inr rfl)]
    · rw [AList.lookup_insert_ne hNe, h.feedback j]
      apply if_congr _ rfl rfl
      constructor
      · exact Or.inl
      · rintro (hj | hEq)
        · exact hj
        · exact absurd hEq hNe

end Filled

theorem mem_slotsBelow {j : ℕ} : i ∈ slotsBelow pattern kind j ↔
    i < j ∧ (pattern[i]?).any kind = true := by
  rw [slotsBelow, List.mem_filter, List.mem_range]

theorem slotsBelow_nodup (j : ℕ) : (slotsBelow pattern kind j).Nodup :=
  List.nodup_range.filter _

theorem slotsBelow_succ {j : ℕ} (hj : j < pattern.length) : slotsBelow pattern kind (j + 1) =
    slotsBelow pattern kind j ++ if kind pattern[j] = true then [j] else [] := by
  rw [slotsBelow, List.range_succ, List.filter_append, ← slotsBelow, List.filter_singleton,
    List.getElem?_eq_getElem hj, Bool.cond_eq_ite]
  rfl

namespace Filled

theorem addSlot {j : ℕ} (h : Filled pattern d (slotsBelow pattern LteNrTddSlotType.ulCapable j)
      (slotsBelow pattern LteNrTddSlotType.dlCapable j)
      (slotsBelow pattern LteNrTddSlotType.dlCapable j) t)
    (hSearch : Searchable pattern d) (hj : j < pattern.length) (hFuel : pattern.length ≤ fuel) :
    ∃ t', PatternTables.addSlot fuel pattern pattern d t j = some t' ∧
      Filled pattern d (slotsBelow pattern LteNrTddSlotType.ulCapable (j + 1))
        (slotsBelow pattern LteNrTddSlotType.dlCapable (j + 1))
        (slotsBelow pattern LteNrTddSlotType.dlCapable (j + 1)) t' := by
  rw [slotsBelow_succ hj, slotsBelow_succ hj, PatternTables.addSlot, List.getElem?_eq_getElem hj,
    Option.bind_eq_bind, Option.bind_some, Option.bind_some]
  cases pattern[j] with
  | ul =>
    obtain ⟨t₁, hUl, h₁⟩ := h.addUl hSearch hj hFuel
    refine ⟨t₁, by simpa using hUl, ?_⟩
    simpa [LteNrTddSlotType.ulCapable, LteNrTddSlotType.dlCapable] using h₁
  | dl =>
    obtain ⟨t₁, hDl, h₁⟩ := h.addDl hSearch hj hFuel
    obtain ⟨t₂, hFeedback, h₂⟩ := h₁.addFeedback hSearch hj hFuel
    refine ⟨t₂, by simpa [hDl] using hFeedback, ?_⟩
    simpa [LteNrTddSlotType.ulCapable, LteNrTddSlotType.dlCapable] using h₂
  | s =>
    obtain ⟨t₁, hDl, h₁⟩ := h.addDl hSearch hj hFuel
    obtain ⟨t₂, hFeedback, h₂⟩ := h₁.addFeedback hSearch hj hFuel
    refine ⟨t₂, by simpa [hDl] using hFeedback, ?_⟩
    simpa [LteNrTddSlotType.ulCapable, LteNrTddSlotType.dlCapable] using h₂
  | f =>
    obtain ⟨t₁, hDl, h₁⟩ := h.addDl hSearch hj hFuel
    obtain ⟨t₂, hUl, h₂⟩ := h₁.addUl hSearch hj hFuel
    obtain ⟨t₃, hFeedback, h₃⟩ := h₂.addFeedback hSearch hj hFuel
    refine ⟨t₃, by simpa [hDl, hUl] using hFeedback, ?_⟩
    simpa [LteNrTddSlotType.ulCapable, LteNrTddSlotType.dlCapable] using h₃

theorem init : Filled pattern d [] [] [] {} := by
  constructor <;> intro r <;> rfl

theorem foldlM (hSearch : Searchable pattern d) (hFuel : pattern.length ≤ fuel) {j : ℕ}
    (hj : j ≤ pattern.length) :
    ∃ t, (List.range j).foldlM (PatternTables.addSlot fuel pattern pattern d) {} = some t ∧
      Filled pattern d (slotsBelow pattern LteNrTddSlotType.ulCapable j)
        (slotsBelow pattern LteNrTddSlotType.dlCapable j)
        (slotsBelow pattern LteNrTddSlotType.dlCapable j) t := by
  induction j with
  | zero => exact ⟨{}, rfl, init⟩
  | succ j ih =>
    obtain ⟨t, hFold, hFilled⟩ := ih (Nat.le_of_succ_le hj)
    obtain ⟨t', hStep, hNext⟩ := hFilled.addSlot hSearch hj hFuel
    refine ⟨t', ?_, hNext⟩
    rw [List.range_succ, List.foldlM_append, hFold]
    exact (bind_pure _).trans hStep

end Filled

/-! ## What the tables are for -/

/-- Each slot of the kind is reached from one entry, after the least delay that starts at a slot
with DL control. -/
def Covered (pattern : List LteNrTddSlotType) (kind : LteNrTddSlotType → Bool) (n : ℕ)
    (toSend : DciTable) : Prop :=
  ∀ i : ℕ, i < pattern.length → SlotAt pattern kind i →
    ∃ d k, d < pattern.length ∧ (d + k) % pattern.length = i ∧ (toSend.read d).count k = 1 ∧
      (∀ d' k', k' ∈ toSend.read d' → (d' + k') % pattern.length = i → d' = d ∧ k' = k) ∧
      IsLeast {k : ℕ | n ≤ k ∧ SlotAt pattern LteNrTddSlotType.dlCapable (i - k)} k

/-- The entries of the second table are those of the first, asked for `latency` slots earlier. -/
def Shifted (pattern : List LteNrTddSlotType) (latency : ℕ) (toSend generate : DciTable) : Prop :=
  ∀ d < pattern.length,
    (generate.read (back pattern.length d latency)).Perm ((toSend.read d).map (· + latency))

/-- The feedback of each DL-capable slot falls on the first UL-capable slot that is late enough. -/
def FeedbackPlaced (pattern : List LteNrTddSlotType) (n : ℕ)
    (dlHarqfbPosition : AList fun _ : ℕ => ℕ) : Prop :=
  ∀ i : ℕ, i < pattern.length → SlotAt pattern LteNrTddSlotType.dlCapable i →
    ∃ k1, dlHarqfbPosition.lookup i = some k1 ∧
      IsLeast {k : ℕ | n ≤ k ∧ SlotAt pattern LteNrTddSlotType.ulCapable (i + k)} k1

structure PatternMaps (pattern : List LteNrTddSlotType) (d : Delays) (t : PatternTables) : Prop where
  coversUl : Covered pattern LteNrTddSlotType.ulCapable d.n2 t.toSendUl
  coversDl : Covered pattern LteNrTddSlotType.dlCapable d.n0 t.toSendDl
  shiftsUl : Shifted pattern d.l1l2CtrlLatency t.toSendUl t.generateUl
  shiftsDl : Shifted pattern d.l1l2CtrlLatency t.toSendDl t.generateDl
  feedback : FeedbackPlaced pattern d.n1 t.dlHarqfbPosition

theorem mem_slotsBelow_iff (hi : i < pattern.length) :
    i ∈ slotsBelow pattern kind pattern.length ↔ SlotAt pattern kind i := by
  rw [mem_slotsBelow, slotAt_natCast hi, List.getElem?_eq_getElem hi]
  exact and_iff_right hi

theorem slotsBelow_lt : ∀ i ∈ slotsBelow pattern kind pattern.length, i < pattern.length :=
  fun _ hi => (mem_slotsBelow.mp hi).1

theorem covered_of_column (hDl : ∃ t ∈ pattern, t.dlCapable = true) {toSend : DciTable}
    (hColumn : ∀ r, toSend.read r = column pattern.length
      (slotsBelow pattern kind pattern.length) (dciDelay pattern n) r) :
    Covered pattern kind n toSend := by
  intro i hi hKind
  have hMem := (mem_slotsBelow_iff hi).mpr hKind
  have hd : back pattern.length i (dciDelay pattern n i) < pattern.length :=
    back_lt (Nat.zero_lt_of_lt hi)
  have hSlot := (back_eq_iff (k := dciDelay pattern n i) hd hi).mp rfl
  refine ⟨_, dciDelay pattern n i, hd, hSlot, ?_, ?_, (dciDelay_spec hDl n i).1⟩
  · rw [hColumn, count_column (slotsBelow_nodup _) slotsBelow_lt hd, hSlot, if_pos ⟨hMem, rfl⟩]
  · intro d' k' hk hReach
    rw [hColumn] at hk
    obtain ⟨j, hj, rfl, rfl⟩ := mem_column.mp hk
    have hj' := slotsBelow_lt j hj
    have hOwn := (back_eq_iff (k := dciDelay pattern n j)
      (back_lt (Nat.zero_lt_of_lt hj')) hj').mp rfl
    obtain rfl : j = i := hOwn.symm.trans hReach
    exact ⟨rfl, rfl⟩

theorem read_sortLists (t : DciTable) (r : ℕ) :
    (sortLists t).read r = (t.read r).insertionSort (· ≤ ·) :=
  KeyedLists.read_mapLists rfl

theorem shifted_of_column {delay : ℕ → ℕ} {latency : ℕ} {toSend generate : DciTable} {slots : List ℕ}
    (hSend : ∀ r, toSend.read r = column pattern.length slots delay r)
    (hGenerate : ∀ r, generate.read r =
      column pattern.length slots (fun i => delay i + latency) r) :
    Shifted pattern latency toSend (sortLists generate) := by
  intro d hd
  rw [read_sortLists, hSend, hGenerate, column_add hd]
  exact List.perm_insertionSort ..

theorem Filled.patternMaps (hSearch : Searchable pattern d)
    (h : Filled pattern d (slotsBelow pattern LteNrTddSlotType.ulCapable pattern.length)
      (slotsBelow pattern LteNrTddSlotType.dlCapable pattern.length)
      (slotsBelow pattern LteNrTddSlotType.dlCapable pattern.length) t) :
    PatternMaps pattern d
      { t with generateUl := sortLists t.generateUl, generateDl := sortLists t.generateDl } where
  coversUl := covered_of_column hSearch.dl h.toSendUl
  coversDl := covered_of_column hSearch.dl h.toSendDl
  shiftsUl := shifted_of_column h.toSendUl h.generateUl
  shiftsDl := shifted_of_column h.toSendDl h.generateDl
  feedback := by
    intro i hi hKind
    refine ⟨harqDelay pattern d.n1 i, ?_, (harqDelay_spec hSearch.ul d.n1 i).1⟩
    rw [h.feedback, if_pos ((mem_slotsBelow_iff hi).mpr hKind)]

/-- Taken for TDD, a pattern gets its tables filled. -/
theorem generateStructuresFromPattern_eq (hSearch : Searchable pattern d)
    (hTdd : isTdd pattern = true) (hFuel : pattern.length ≤ fuel) :
    ∃ t, generateStructuresFromPattern fuel pattern {} d =
        some { t with generateUl := sortLists t.generateUl, generateDl := sortLists t.generateDl } ∧
      Filled pattern d (slotsBelow pattern LteNrTddSlotType.ulCapable pattern.length)
        (slotsBelow pattern LteNrTddSlotType.dlCapable pattern.length)
        (slotsBelow pattern LteNrTddSlotType.dlCapable pattern.length) t := by
  obtain ⟨t, hFold, hFilled⟩ := Filled.foldlM hSearch hFuel (Nat.le_refl _)
  refine ⟨t, ?_, hFilled⟩
  simp only [generateStructuresFromPattern, hTdd, if_true]
  rw [hSearch.n0.patternSize, hFold]
  rfl

end Bullet.Phy
