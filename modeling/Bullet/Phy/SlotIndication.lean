import Bullet.Lib.PartialRun
import Bullet.Phy.PatternTables
import Bullet.Phy.PostponedSlots

/-! # Asking the MAC for every slot once

At each slot the MAC is asked for the slots that the tables name. Over consecutive slots it is asked
for every slot of the right kind once, as long as the positions of the slots fit 32 bits.
-/

namespace Bullet.Phy

open Lib Lib.CyclicTable

namespace Indication

def sfn : Indication → SfnSf
  | slotUl sfn _ => sfn
  | slotDl sfn _ => sfn

def type : Indication → LteNrTddSlotType
  | slotUl _ type => type
  | slotDl _ type => type

def isUl (y : SfnSf) : Indication → Bool
  | slotUl sfn _ => decide (sfn = y)
  | slotDl _ _ => false

def isDl (y : SfnSf) : Indication → Bool
  | slotUl _ _ => false
  | slotDl sfn _ => decide (sfn = y)

end Indication

/-- One slot of a run, whose indications are collected. -/
def ask (s : NrGnbPhy × List Indication) (currentSlot : SfnSf) :
    Option (NrGnbPhy × List Indication) := do
  let (phy, asks) ← s.1.callMacForSlotIndication currentSlot
  some (phy, s.2 ++ asks)

/-- No indication looks further ahead. -/
def reach (pattern : List LteNrTddSlotType) (d : Delays) : ℕ :=
  max d.n0 d.n2 + pattern.length + d.l1l2CtrlLatency

/-- `count` is 1 when slot `t` is of the kind and asked for by one of the `len` slots from `a` on,
and 0 otherwise. -/
structure AskedOnce (pattern : List LteNrTddSlotType) (kind : LteNrTddSlotType → Bool)
    (n latency a len t count : ℕ) : Prop where
  due : SlotAt pattern kind t → ∀ k,
    IsLeast {k : ℕ | n ≤ k ∧ SlotAt pattern LteNrTddSlotType.dlCapable (t - k)} k →
    count = if a + (k + latency) ≤ t ∧ t < a + len + (k + latency) then 1 else 0
  other : ¬ SlotAt pattern kind t → count = 0

/-- Every run of consecutive slots asks for each slot once. -/
def AsksOnce (d : Delays) (phy : NrGnbPhy) : Prop :=
  ∀ (x : SfnSf) (len : ℕ), x.Normal → x.position + len + reach phy.tddPattern d ≤ 2 ^ 32 →
    ∃ phy' asks, PartialRun.run ask (phy, []) (x.slotsFrom len) = some (phy', asks) ∧
      (∀ a ∈ asks, SlotAt phy.tddPattern (fun t => decide (t = a.type)) a.sfn.position) ∧
      ∀ y : SfnSf, y.Normal → y.numerology = x.numerology →
        AskedOnce phy.tddPattern LteNrTddSlotType.ulCapable d.n2 d.l1l2CtrlLatency x.position len
          y.position (asks.countP (Indication.isUl y)) ∧
        AskedOnce phy.tddPattern LteNrTddSlotType.dlCapable d.n0 d.l1l2CtrlLatency x.position len
          y.position (asks.countP (Indication.isDl y))

variable {pattern : List LteNrTddSlotType} {kind : LteNrTddSlotType → Bool} {d : Delays}
  {phy : NrGnbPhy} {x y : SfnSf} {k n : ℕ}

/-- The slots that are asked for, by the delays and by the slots they are for. -/
noncomputable def generation (pattern : List LteNrTddSlotType) (n latency : ℕ) (i : ℕ) : ℕ :=
  dciDelay pattern n i + latency

/-- The tables are those of the pattern, up to order and to empty entries. -/
structure Serving (pattern : List LteNrTddSlotType) (d : Delays) (phy : NrGnbPhy) : Prop where
  pattern_eq : phy.tddPattern = pattern
  ul : ∀ r, (phy.generateUl.read r).Perm (column pattern.length
    (slotsBelow pattern LteNrTddSlotType.ulCapable pattern.length)
    (generation pattern d.n2 d.l1l2CtrlLatency) r)
  dl : ∀ r, (phy.generateDl.read r).Perm (column pattern.length
    (slotsBelow pattern LteNrTddSlotType.dlCapable pattern.length)
    (generation pattern d.n0 d.l1l2CtrlLatency) r)
  entries : phy.generateUl.entries ≠ []

theorem generation_lt (hDl : ∃ t ∈ pattern, t.dlCapable = true) (n latency i : ℕ) :
    generation pattern n latency i < n + pattern.length + latency := by
  have hBound := (dciDelay_spec hDl n i).2
  rw [generation]
  omega

/-- The slot `k` slots on. -/
def SfnSf.advance (x : SfnSf) (k : ℕ) : SfnSf :=
  (x.add (UInt32.ofNat k)).getD x

theorem SfnSf.advance_spec (hx : x.Normal) (hBelow : x.position + k < 2 ^ 32) :
    x.add (UInt32.ofNat k) = some (x.advance k) ∧ (x.advance k).Normal ∧
      (x.advance k).numerology = x.numerology ∧ (x.advance k).position = x.position + k := by
  have hK : (UInt32.ofNat k).toNat = k := UInt32.toNat_ofNat_of_lt' (by change k < 2 ^ 32; omega)
  have hSub : x.subframeNum.toNat ≤ x.subframeNum.toNat * x.slotsPerSubframe :=
    Nat.le_mul_of_pos_right _ SfnSf.slotsPerSubframe_pos
  have hFrame : 1 ≤ x.slotsPerFrame := by
    have hPos := x.slotsPerSubframe_pos
    rw [SfnSf.slotsPerFrame]
    omega
  have hHorizon : x.position + k < x.horizon :=
    hBelow.trans_le (Nat.le_mul_of_pos_right _ hFrame)
  obtain ⟨y, hAdd, hAdded⟩ := SfnSf.add_eq (n := UInt32.ofNat k) hx.admitted
    (SfnSf.sumsFit_of_lt (by
      rw [SfnSf.position] at hBelow
      omega))
  rw [hK] at hAdded
  have hAdvance : x.advance k = y := by rw [SfnSf.advance, hAdd, Option.getD_some]
  rw [hAdvance]
  exact ⟨hAdd, hAdded.normal hx.admitted, hAdded.numerology, hAdded.position hHorizon⟩

/-- The type of the slot at a position. -/
def typeAt (pattern : List LteNrTddSlotType) (p : ℕ) : LteNrTddSlotType :=
  (pattern[p % pattern.length]?).getD .f

theorem patternIndex_eq (hPos : phy.tddPattern ≠ []) (hx : x.Normal) (hBelow : x.position < 2 ^ 32) :
    phy.patternIndex x = some (x.position % phy.tddPattern.length) := by
  obtain ⟨n, hNormalize, hN⟩ := SfnSf.normalize_eq hx hBelow
  rw [NrGnbPhy.patternIndex, hNormalize, Option.bind_eq_bind, Option.bind_some, if_neg hPos, hN]

theorem indicate_eq (hPos : phy.tddPattern ≠ []) (hx : x.Normal)
    (hBelow : x.position + k < 2 ^ 32) (indication : SfnSf → LteNrTddSlotType → Indication) :
    phy.indicate x indication k =
      some (indication (x.advance k) (typeAt phy.tddPattern (x.position + k))) := by
  obtain ⟨hAdd, hNormal, -, hPosition⟩ := SfnSf.advance_spec hx hBelow
  have hLt : (x.position + k) % phy.tddPattern.length < phy.tddPattern.length :=
    Nat.mod_lt _ (List.length_pos_iff.mpr hPos)
  rw [NrGnbPhy.indicate, hAdd, Option.bind_eq_bind, Option.bind_some,
    patternIndex_eq hPos hNormal (by omega), hPosition, typeAt]
  simp only [Option.bind_eq_bind, Option.bind_some, List.getElem?_eq_getElem hLt, Option.getD_some]

/-! ## One slot -/

/-- The indications of one table are about the positions it serves. -/
theorem countP_indications {l : List ℕ} {m : ℕ} {slots : List ℕ} {delay : ℕ → ℕ}
    (hTable : l.Perm (column m slots delay (x.position % m))) (hx : x.Normal)
    (hBelow : ∀ k ∈ l, x.position + k < 2 ^ 32) (hy : y.Normal) (hNumerology : y.numerology = x.numerology) :
    l.countP (fun k => decide (x.advance k = y)) = (served m slots delay x.position).count y.position := by
  have hSame : ∀ k ∈ l, decide (x.advance k = y) = true ↔ (x.position + k == y.position) = true := by
    intro k hk
    obtain ⟨-, hNormal, hOwn, hPosition⟩ := SfnSf.advance_spec hx (hBelow k hk)
    rw [decide_eq_true_eq, beq_iff_eq, ← hPosition]
    constructor
    · rintro rfl
      rfl
    · exact SfnSf.eq_of_position_eq hy hNormal (hOwn.trans hNumerology.symm)
  rw [List.countP_congr hSame, served, List.count_eq_countP, List.countP_map]
  exact hTable.countP_eq _

theorem Serving.mem_lt (h : Serving pattern d phy) (hSearch : Searchable pattern d) {r : ℕ}
    (hk : k ∈ phy.generateUl.read r ∨ k ∈ phy.generateDl.read r) : k < reach pattern d := by
  rcases hk with hk | hk
  · obtain ⟨i, -, -, rfl⟩ := mem_column.mp ((h.ul r).mem_iff.mp hk)
    have hLt := generation_lt hSearch.dl d.n2 d.l1l2CtrlLatency i
    have hMax : d.n2 ≤ max d.n0 d.n2 := Nat.le_max_right ..
    rw [reach]
    omega
  · obtain ⟨i, -, -, rfl⟩ := mem_column.mp ((h.dl r).mem_iff.mp hk)
    have hLt := generation_lt hSearch.dl d.n0 d.l1l2CtrlLatency i
    have hMax : d.n0 ≤ max d.n0 d.n2 := Nat.le_max_left ..
    rw [reach]
    omega

/-- What the slots at the listed times ask for. -/
structure Asked (pattern : List LteNrTddSlotType) (d : Delays) (numerology : UInt8) (times : List ℕ)
    (asks : List Indication) : Prop where
  typed : ∀ a ∈ asks, SlotAt pattern (fun t => decide (t = a.type)) a.sfn.position
  ul : ∀ y : SfnSf, y.Normal → y.numerology = numerology → asks.countP (Indication.isUl y) =
    (times.flatMap (served pattern.length
      (slotsBelow pattern LteNrTddSlotType.ulCapable pattern.length)
      (generation pattern d.n2 d.l1l2CtrlLatency))).count y.position
  dl : ∀ y : SfnSf, y.Normal → y.numerology = numerology → asks.countP (Indication.isDl y) =
    (times.flatMap (served pattern.length
      (slotsBelow pattern LteNrTddSlotType.dlCapable pattern.length)
      (generation pattern d.n0 d.l1l2CtrlLatency))).count y.position

theorem Asked.append {numerology : UInt8} {times times' : List ℕ} {asks asks' : List Indication}
    (h : Asked pattern d numerology times asks) (h' : Asked pattern d numerology times' asks') :
    Asked pattern d numerology (times ++ times') (asks ++ asks') where
  typed a ha := by
    rcases List.mem_append.mp ha with ha | ha
    · exact h.typed a ha
    · exact h'.typed a ha
  ul y hy hNumerology := by
    rw [List.countP_append, List.flatMap_append, List.count_append, h.ul y hy hNumerology,
      h'.ul y hy hNumerology]
  dl y hy hNumerology := by
    rw [List.countP_append, List.flatMap_append, List.count_append, h.dl y hy hNumerology,
      h'.dl y hy hNumerology]

theorem slotAt_typeAt {p : ℕ} (hPos : 0 < pattern.length) :
    SlotAt pattern (fun t => decide (t = typeAt pattern p)) p := by
  obtain ⟨t, ht⟩ := exists_slot hPos (p : ℤ)
  have hIndex : ((p : ℤ) % pattern.length).toNat = p % pattern.length := by
    rw [← Int.natCast_emod, Int.toNat_natCast]
  rw [slotAt_of_getElem? ht, decide_eq_true_eq, typeAt, ← hIndex, ht, Option.getD_some]

theorem Serving.call (h : Serving pattern d phy) (hSearch : Searchable pattern d) (hx : x.Normal)
    (hBelow : x.position + reach pattern d < 2 ^ 32) :
    ∃ phy' asks, phy.callMacForSlotIndication x = some (phy', asks) ∧ Serving pattern d phy' ∧
      Asked pattern d x.numerology [x.position] asks := by
  obtain ⟨t, ht, -⟩ := hSearch.dl
  have hNe : phy.tddPattern ≠ [] := by
    rw [h.pattern_eq]
    exact List.ne_nil_of_mem ht
  have hPos : 0 < pattern.length := List.length_pos_of_mem ht
  let index := x.position % pattern.length
  have hReachUl : ∀ k ∈ phy.generateUl.read index, x.position + k < 2 ^ 32 := by
    intro k hk
    have hLt := h.mem_lt hSearch (Or.inl hk)
    omega
  have hReachDl : ∀ k ∈ phy.generateDl.read index, x.position + k < 2 ^ 32 := by
    intro k hk
    have hLt := h.mem_lt hSearch (Or.inr hk)
    omega
  have hIndex : phy.patternIndex x = some index := by
    rw [patternIndex_eq hNe hx (by omega), h.pattern_eq]
  have hUl := PartialRun.mapM_eq_map fun k hk => indicate_eq hNe hx (hReachUl k hk) .slotUl
  have hDl := PartialRun.mapM_eq_map fun k hk => indicate_eq hNe hx (hReachDl k hk) .slotDl
  have hEntries : ¬ (phy.generateDl.entries = [] ∧ phy.generateUl.entries = []) :=
    fun hBoth => h.entries hBoth.2
  have hCall : phy.callMacForSlotIndication x = some
      ({ phy with
          generateUl := phy.generateUl.touch index
          generateDl := phy.generateDl.touch index },
        (phy.generateUl.read index).map (fun k =>
          .slotUl (x.advance k) (typeAt phy.tddPattern (x.position + k))) ++
        (phy.generateDl.read index).map (fun k =>
          .slotDl (x.advance k) (typeAt phy.tddPattern (x.position + k)))) := by
    rw [NrGnbPhy.callMacForSlotIndication, if_neg hEntries, hIndex, Option.bind_eq_bind,
      Option.bind_some, hUl, hDl]
    rfl
  refine ⟨_, _, hCall, ⟨h.pattern_eq, ?_, ?_, KeyedLists.touch_entries_ne_nil⟩, ?_, ?_, ?_⟩
  · intro r
    rw [KeyedLists.read_touch]
    exact h.ul r
  · intro r
    rw [KeyedLists.read_touch]
    exact h.dl r
  · intro a ha
    rcases List.mem_append.mp ha with ha | ha
    · obtain ⟨k, hk, rfl⟩ := List.mem_map.mp ha
      rw [Indication.sfn, (SfnSf.advance_spec hx (hReachUl k hk)).2.2.2, Indication.type,
        h.pattern_eq]
      exact slotAt_typeAt hPos
    · obtain ⟨k, hk, rfl⟩ := List.mem_map.mp ha
      rw [Indication.sfn, (SfnSf.advance_spec hx (hReachDl k hk)).2.2.2, Indication.type,
        h.pattern_eq]
      exact slotAt_typeAt hPos
  · intro y hy hNumerology
    rw [List.countP_append, List.countP_map, List.countP_map, List.flatMap_singleton,
      ← countP_indications (h.ul index) hx hReachUl hy hNumerology]
    exact Nat.add_eq_left.mpr (List.countP_eq_zero.mpr fun _ _ => Bool.false_ne_true)
  · intro y hy hNumerology
    rw [List.countP_append, List.countP_map, List.countP_map, List.flatMap_singleton,
      ← countP_indications (h.dl index) hx hReachDl hy hNumerology]
    exact Nat.add_eq_right.mpr (List.countP_eq_zero.mpr fun _ _ => Bool.false_ne_true)

/-! ## A run of slots -/

theorem SfnSf.next_position (hx : x.Normal) (hBelow : x.position + 1 < 2 ^ 32) :
    x.next.Normal ∧ x.next.numerology = x.numerology ∧ x.next.position = x.position + 1 := by
  have hNext : x.next = x.advance 1 := rfl
  rw [hNext]
  exact (SfnSf.advance_spec hx hBelow).2

theorem Serving.run (h : Serving pattern d phy) (hSearch : Searchable pattern d) {len : ℕ}
    (hx : x.Normal) (hBelow : x.position + len + reach pattern d ≤ 2 ^ 32) (log : List Indication) :
    ∃ phy' asks, PartialRun.run ask (phy, log) (x.slotsFrom len) = some (phy', log ++ asks) ∧
      Asked pattern d x.numerology (List.range' x.position len) asks := by
  induction len generalizing x phy log with
  | zero =>
    refine ⟨phy, [], by rw [List.append_nil]; rfl, ?_, ?_, ?_⟩
    · intro a ha
      cases ha
    · intros
      rfl
    · intros
      rfl
  | succ len ih =>
    have hReach : 0 < reach pattern d := by
      obtain ⟨t, ht, -⟩ := hSearch.dl
      have hPos := List.length_pos_of_mem ht
      rw [reach]
      omega
    obtain ⟨phy₁, asks₁, hCall, hServing, hAsked⟩ := h.call hSearch hx (by omega)
    obtain ⟨hNormal, hNumerology, hPosition⟩ := SfnSf.next_position hx (by omega)
    obtain ⟨phy₂, asks₂, hRun, hRest⟩ := ih hServing hNormal (by omega) (log ++ asks₁)
    refine ⟨phy₂, asks₁ ++ asks₂, ?_, ?_⟩
    · rw [SfnSf.slotsFrom, PartialRun.run_cons, ask, hCall]
      simp only [Option.bind_eq_bind, Option.bind_some]
      rw [hRun, List.append_assoc]
    · rw [hNumerology, hPosition] at hRest
      exact hAsked.append hRest

theorem dciDelay_mod {p : ℕ} (hDl : ∃ t ∈ pattern, t.dlCapable = true)
    (hLeast : IsLeast {k : ℕ | n ≤ k ∧ SlotAt pattern LteNrTddSlotType.dlCapable (p - k)} k) :
    dciDelay pattern n (p % pattern.length) = k := by
  have hSame : ∀ j : ℕ, SlotAt pattern LteNrTddSlotType.dlCapable ((p % pattern.length : ℕ) - j) ↔
      SlotAt pattern LteNrTddSlotType.dlCapable (p - j) := by
    intro j
    apply slotAt_congr
    rw [Int.natCast_emod, Int.emod_sub_emod]
  have hOwn := (dciDelay_spec hDl n (p % pattern.length)).1
  simp only [hSame] at hOwn
  exact hOwn.unique hLeast

theorem askedOnce_of_count (hDl : ∃ t ∈ pattern, t.dlCapable = true) {latency a len t count : ℕ}
    (hCount : count = ((List.range' a len).flatMap (served pattern.length
      (slotsBelow pattern kind pattern.length) (generation pattern n latency))).count t) :
    AskedOnce pattern kind n latency a len t count := by
  have hPos : 0 < pattern.length := List.length_pos_of_mem hDl.choose_spec.1
  have hMem : t % pattern.length ∈ slotsBelow pattern kind pattern.length ↔ SlotAt pattern kind t := by
    rw [mem_slotsBelow_iff (Nat.mod_lt t hPos)]
    apply slotAt_congr
    rw [Int.natCast_emod, Int.emod_emod]
  rw [count_served_run (slotsBelow_nodup _) slotsBelow_lt hPos] at hCount
  constructor
  · intro hKind k hLeast
    rw [hCount, generation, dciDelay_mod hDl hLeast]
    simp only [hMem.mpr hKind, true_and]
  · intro hOther
    rw [hCount, if_neg fun h => hOther (hMem.mp h.1)]

theorem Serving.asksOnce (h : Serving pattern d phy) (hSearch : Searchable pattern d) :
    AsksOnce d phy := by
  obtain rfl := h.pattern_eq
  intro x len hx hBelow
  obtain ⟨phy', asks, hRun, hAsked⟩ := h.run hSearch hx hBelow []
  refine ⟨phy', asks, hRun, hAsked.typed, ?_⟩
  intro y hy hNumerology
  exact ⟨askedOnce_of_count hSearch.dl (hAsked.ul y hy hNumerology),
    askedOnce_of_count hSearch.dl (hAsked.dl y hy hNumerology)⟩

/-- Tables that are filled serve their pattern. -/
theorem Filled.serving {t : PatternTables} (hSearch : Searchable pattern d)
    (h : Filled pattern d (slotsBelow pattern LteNrTddSlotType.ulCapable pattern.length)
      (slotsBelow pattern LteNrTddSlotType.dlCapable pattern.length)
      (slotsBelow pattern LteNrTddSlotType.dlCapable pattern.length) t) :
    Serving pattern d
      { t with
        generateUl := sortLists t.generateUl
        generateDl := sortLists t.generateDl
        tddPattern := pattern } := by
  refine ⟨rfl, ?_, ?_, ?_⟩
  · intro r
    rw [read_sortLists, h.generateUl]
    exact List.perm_insertionSort ..
  · intro r
    rw [read_sortLists, h.generateDl]
    exact List.perm_insertionSort ..
  · obtain ⟨slot, hSlot, hUl⟩ := hSearch.ul
    obtain ⟨i, hi, rfl⟩ := List.getElem_of_mem hSlot
    have hMem := (mem_slotsBelow_iff hi).mpr ((slotAt_natCast hi).mpr hUl)
    apply KeyedLists.entries_ne_nil_of_read
    apply List.ne_nil_of_mem
    rw [read_sortLists, List.mem_insertionSort, h.generateUl]
    exact mem_column.mpr ⟨i, hMem, rfl, rfl⟩

/-! ## The patterns that are served -/

/-- The pattern mixes the directions in an F slot, or by DL slots and UL slots. -/
def Recognized (pattern : List LteNrTddSlotType) : Prop :=
  .f ∈ pattern ∨ .dl ∈ pattern ∧ .ul ∈ pattern

instance (pattern : List LteNrTddSlotType) : Decidable (Recognized pattern) :=
  inferInstanceAs (Decidable (_ ∨ _))

/-- The tables of a pattern are there, cover it, and ask for its slots. -/
def Served (pattern : List LteNrTddSlotType) (d : Delays) : Prop :=
  ∀ fuel, pattern.length ≤ fuel → ∃ t,
    generateStructuresFromPattern fuel pattern {} d = some t ∧ PatternMaps pattern d t ∧
      AsksOnce d { t with tddPattern := pattern }

theorem ulCapable_cases {t : LteNrTddSlotType} (h : t.ulCapable = true) : t = .f ∨ t = .ul := by
  cases t with
  | f => exact Or.inl rfl
  | ul => exact Or.inr rfl
  | dl => cases h
  | s => cases h

theorem recognized_iff (hUl : ∃ t ∈ pattern, t.ulCapable = true) :
    Recognized pattern ↔ isTdd pattern = true := by
  rw [isTdd_iff, Recognized]
  obtain ⟨t, ht, hKind⟩ := hUl
  rcases ulCapable_cases hKind with rfl | rfl
  · exact iff_of_true (Or.inl ht) (Or.inl ht)
  · simp only [ht, and_true, true_iff]

/-- A pattern that is not recognized loses the DL slots that the MAC should be asked for. -/
theorem recognized_of_maps {fuel : ℕ} {t : PatternTables} (hSearch : Searchable pattern d)
    (hGenerate : generateStructuresFromPattern fuel pattern {} d = some t)
    (hMaps : PatternMaps pattern d t) : Recognized pattern := by
  rw [recognized_iff hSearch.ul]
  by_contra hNot
  have hTdd : isTdd pattern = false := Bool.eq_false_iff.mpr hNot
  have hHasUl : hasUlSlot pattern = true := by
    obtain ⟨slot, hSlot, hKind⟩ := hSearch.ul
    exact List.any_eq_true.mpr ⟨slot, hSlot, hKind⟩
  have hEmpty : t.generateDl = sortLists ∅ := by
    simp only [generateStructuresFromPattern, hTdd, hHasUl, Option.bind_eq_bind,
      Option.bind_eq_some_iff, Option.some.injEq] at hGenerate
    obtain ⟨-, -, rfl⟩ := hGenerate
    rfl
  obtain ⟨slot, hSlot, hKind⟩ := hSearch.dl
  obtain ⟨i, hi, rfl⟩ := List.getElem_of_mem hSlot
  obtain ⟨r, k, hr, -, hCount, -⟩ := hMaps.coversDl i hi ((slotAt_natCast hi).mpr hKind)
  have hShift := (hMaps.shiftsDl r hr).length_eq
  rw [hEmpty, read_sortLists, KeyedLists.read_empty, List.length_map] at hShift
  rw [List.length_eq_zero_iff.mp hShift.symm] at hCount
  cases hCount

/-- A pattern with slots for both directions is covered and asked for exactly when it is taken for a
TDD pattern: it has an F slot, or DL slots and UL slots. -/
theorem served_iff (hSearch : Searchable pattern d) : Served pattern d ↔ Recognized pattern := by
  constructor
  · intro h
    obtain ⟨t, hGenerate, hMaps, -⟩ := h pattern.length (Nat.le_refl _)
    exact recognized_of_maps hSearch hGenerate hMaps
  · intro hRecognized fuel hFuel
    obtain ⟨t, hGenerate, hFilled⟩ := generateStructuresFromPattern_eq hSearch
      ((recognized_iff hSearch.ul).mp hRecognized) hFuel
    exact ⟨_, hGenerate, hFilled.patternMaps hSearch, (hFilled.serving hSearch).asksOnce hSearch⟩

/-- A special slot and two UL slots after a DL slot. -/
theorem served_dl_s_ul_ul : Served [.dl, .s, .ul, .ul] ⟨0, 4, 2, 2⟩ :=
  (served_iff (by decide)).mpr (by decide)

/-- Special slots carry DL, but with UL slots alone they are not taken for TDD: the DCI of slot 1 is
sent in slot 1, a UL slot, and the MAC is never asked for slot 0. -/
theorem special_not_served : Searchable [.s, .ul] ⟨0, 2, 2, 2⟩ ∧
    (∃ t, generateStructuresFromPattern 2 [.s, .ul] {} ⟨0, 2, 2, 2⟩ = some t ∧
      t.toSendUl.read 1 = [2] ∧ t.toSendDl.read 0 = [0] ∧ t.generateDl.entries = []) ∧
    ¬ Served [.s, .ul] ⟨0, 2, 2, 2⟩ := by
  refine ⟨by decide, ⟨_, rfl, by decide, by decide, by decide⟩, ?_⟩
  intro h
  obtain ⟨t, hGenerate, hMaps, -⟩ := h 2 (Nat.le_refl _)
  have hRecognized := recognized_of_maps (by decide) hGenerate hMaps
  revert hRecognized
  decide

end Bullet.Phy
