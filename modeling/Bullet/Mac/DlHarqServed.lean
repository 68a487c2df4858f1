import Bullet.Mac.DlHarqBeam

/-! # DL HARQ over the beams of a slot

The beams take their symbols one after the other. The retransmissions of a beam fill the RBGs from
the first one up, whatever the notching mask says.
-/

namespace Bullet.Mac

open Lib.Blocks Lib.ShelfPacking

/-- What happened to the processes of one beam. -/
structure BeamOutcome where
  scheduled : List HarqKey
  buffered : List DlHarqInfo
  allocs : List VarTtiAllocInfo

/-- The RBGs that first fit of the beam's processes takes, one process per user. -/
def packedWidth (bw : UInt16) (sym : UInt8) (ueMap : UeMap) (keys : List HarqKey) : ℕ :=
  (OpenShelf.pack bw.toNat sym.toNat {} (keys.map ueMap.dlItem)).filled

/-- The outcome of one beam, with its retransmissions side by side on `bands`. -/
structure BeamPacked (bw : UInt16) (sym : UInt8) (feedback : List DlHarqInfo) (ueMap : UeMap)
    (keys : List HarqKey) (o : BeamOutcome) (bands : List Block) : Prop where
  partition : (o.scheduled ++ o.buffered.map DlHarqInfo.key).Perm keys
  repeats : List.Forall₂ (DlHarqState.Retransmits ueMap) o.scheduled o.allocs
  masks : List.Forall₂ (fun a b => a.dci.rbgBitmask = rbgMask bw.toNat b.start b.len)
    o.allocs bands
  stacked : StackedAbove 0 bands
  width : total bands = packedWidth bw sym ueMap keys
  bound : total bands ≤ bw.toNat
  feedbacks : ∀ f ∈ o.buffered, f ∈ feedback

theorem BeamPacked.congr {bw : UInt16} {sym : UInt8} {feedback : List DlHarqInfo} 
    {ueMap ueMap' : UeMap} {keys : List HarqKey} {o : BeamOutcome} {bands : List Block}
    (h : BeamPacked bw sym feedback ueMap keys o bands)
    (hEq : ∀ key ∈ keys, ueMap'.dlProcess key = ueMap.dlProcess key) :
    BeamPacked bw sym feedback ueMap' keys o bands where
  partition := h.partition
  repeats := by
    have hMem : ∀ key ∈ o.scheduled, key ∈ keys := fun key hKey =>
      h.partition.subset (List.mem_append_left _ hKey)
    refine ((List.forall₂_and_left _ _).mpr ⟨hMem, h.repeats⟩).imp ?_
    rintro key a ⟨hKey, hRetx⟩
    exact hRetx.congr (hEq key hKey)
  masks := h.masks
  stacked := h.stacked
  width := by
    rw [h.width, packedWidth, packedWidth,
      List.map_congr_left fun key hKey => DlHarqState.dlItem_congr (hEq key hKey)]
  bound := h.bound
  feedbacks := h.feedbacks

/-- From `s` the outer loop walked over `beams`. -/
structure DlHarqState.Walked (bw : UInt16) (sym : UInt8) (feedback : List DlHarqInfo)
    (s : DlHarqState) (beams : ActiveHarqMap) (r : DlHarqState) (outs : List BeamOutcome) :
    Prop where
  packed : List.Forall₂ (fun beam o => ∃ bands, BeamPacked bw sym feedback s.ueMap beam.2 o bands)
    beams outs
  allocated : r.slotAlloc.varTtiAllocInfo =
    s.slotAlloc.varTtiAllocInfo ++ outs.flatMap BeamOutcome.allocs
  buffers : r.dlHarqToRetransmit = s.dlHarqToRetransmit ++ outs.flatMap BeamOutcome.buffered
  rbg : r.startingPoint.rbg = 0
  startSym : r.startingPoint.sym.toNat + s.usedSym.toNat =
    s.startingPoint.sym.toNat + r.usedSym.toNat
  used : s.usedSym.toNat ≤ r.usedSym.toNat
  budget : r.usedSym.toNat ≤ s.usedSym.toNat + beams.length * sym.toNat
  inside : ∀ a ∈ outs.flatMap BeamOutcome.allocs,
    a.dci.symbols.Inside s.startingPoint.sym.toNat r.startingPoint.sym.toNat

namespace DlHarqState

section Walk

variable {bw : UInt16} {sym : UInt8} {feedback : List DlHarqInfo} {s : DlHarqState}

theorem Walked.refl (hRbg : s.startingPoint.rbg = 0) : Walked bw sym feedback s [] s [] where
  packed := List.Forall₂.nil
  allocated := (List.append_nil _).symm
  buffers := (List.append_nil _).symm
  rbg := hRbg
  startSym := rfl
  used := le_rfl
  budget := Nat.le_add_right _ _
  inside := nofun

/-- One beam: its retransmissions are packed, and the next beam starts behind its symbols. -/
theorem beam_walked (sym : UInt8) (beamId : UInt16) {keys : List HarqKey}
    (hNacked : ∀ key ∈ keys, ∃ dci, DlNacked bw feedback s.ueMap key dci) (hNodup : keys.Nodup)
    (hRbg : s.startingPoint.rbg = 0) (hSym : s.startingPoint.sym.toNat + sym.toNat < 2 ^ 8)
    (hUsed : s.usedSym.toNat + sym.toNat < 2 ^ 8) :
    ∃ t o, beamLoop bw sym feedback (s, []) keys = some t ∧
      Walked bw sym feedback s [(beamId, keys)] (t.1.endBeam sym t.2) [o] ∧
      ∀ key ∉ keys, (t.1.endBeam sym t.2).ueMap.dlProcess key = s.ueMap.dlProcess key := by
  have hZero : s.startingPoint.rbg.toNat = 0 := congrArg UInt32.toNat hRbg
  obtain ⟨t, scheduled, buffered, allocs, bands, hLoop, hWalked⟩ := beamLoop_walked sym
    (s := (s, [])) hNacked hNodup (hZero.trans_le (Nat.zero_le _))
  have hTotal : t.1.startingPoint.rbg.toNat = total bands := by
    rw [hWalked.rbg, hZero, Nat.zero_add]
  have hPacked : BeamPacked bw sym feedback s.ueMap keys ⟨scheduled, buffered, allocs⟩ bands := by
    refine ⟨hWalked.partition, hWalked.repeats, hWalked.masks, ?_, ?_, ?_, hWalked.feedbacks⟩
    · rw [← hZero]
      exact hWalked.stacked
    · rw [← hTotal]
      refine (congrArg OpenShelf.filled hWalked.packed).trans ?_
      rw [shelf, hZero]
      rfl
    · exact hTotal ▸ hWalked.bound
  have hUes : t.2 = scheduled.map HarqKey.rnti := hWalked.ues
  refine ⟨t, ⟨scheduled, buffered, allocs⟩, hLoop, ?_, ?_⟩
  · rcases Decidable.em (t.2 = []) with hNone | hSome
    · have hScheduled : scheduled = [] := List.map_eq_nil_iff.mp (hUes.symm.trans hNone)
      have hAllocs : allocs = [] := by
        have hRepeats := hWalked.repeats
        rw [hScheduled] at hRepeats
        exact List.forall₂_nil_left_iff.mp hRepeats
      have hBands : bands = [] := by
        have hMasks := hWalked.masks
        rw [hAllocs] at hMasks
        exact List.forall₂_nil_left_iff.mp hMasks
      rw [endBeam, if_pos hNone]
      refine ⟨List.Forall₂.cons ⟨bands, hPacked⟩ List.Forall₂.nil, ?_, ?_, ?_, ?_, ?_, ?_, ?_⟩
      · rw [hWalked.allocated, List.flatMap_singleton]
      · rw [hWalked.buffers, List.flatMap_singleton]
      · refine UInt32.toNat_inj.mp (hTotal.trans ?_)
        rw [hBands]
        rfl
      · rw [hWalked.startSym, hWalked.usedSym]
      · rw [hWalked.usedSym]
      · rw [hWalked.usedSym]
        exact Nat.le_add_right _ _
      · rw [List.flatMap_singleton, hAllocs]
        exact nofun
    · have hSymNat : (t.1.startingPoint.sym + sym).toNat = s.startingPoint.sym.toNat + sym.toNat := by
        rw [hWalked.startSym, UInt8.toNat_add, Nat.mod_eq_of_lt hSym]
      have hUsedNat : (t.1.usedSym + sym).toNat = s.usedSym.toNat + sym.toNat := by
        rw [hWalked.usedSym, UInt8.toNat_add, Nat.mod_eq_of_lt hUsed]
      rw [endBeam, if_neg hSome]
      refine ⟨List.Forall₂.cons ⟨bands, hPacked⟩ List.Forall₂.nil, ?_, ?_, rfl, ?_, ?_, ?_, ?_⟩
      · rw [List.flatMap_singleton]
        exact hWalked.allocated
      · rw [List.flatMap_singleton]
        exact hWalked.buffers
      · rw [hSymNat, hUsedNat]
        omega
      · rw [hUsedNat]
        exact Nat.le_add_right _ _
      · rw [hUsedNat, List.length_singleton, Nat.one_mul]
      · rw [List.flatMap_singleton, hSymNat]
        intro a ha
        rw [hWalked.symbols a ha]
        exact ⟨Nat.le_refl _, Nat.le_refl _⟩
  · intro key hKey
    refine Eq.trans ?_ (hWalked.frame key hKey)
    rw [endBeam]
    split
    · rfl
    · rfl

theorem Walked.trans {r t : DlHarqState} {beams beams' : ActiveHarqMap}
    {outs outs' : List BeamOutcome} (h : Walked bw sym feedback s beams r outs)
    (h' : Walked bw sym feedback r beams' t outs')
    (hFrame : ∀ key ∈ beams'.flatMap Prod.snd, r.ueMap.dlProcess key = s.ueMap.dlProcess key) :
    Walked bw sym feedback s (beams ++ beams') t (outs ++ outs') where
  packed := by
    have hMem : ∀ beam ∈ beams', ∀ key ∈ beam.2,
        s.ueMap.dlProcess key = r.ueMap.dlProcess key := fun beam hBeam key hKey =>
      (hFrame key (List.mem_flatMap.mpr ⟨beam, hBeam, hKey⟩)).symm
    refine List.rel_append h.packed (((List.forall₂_and_left _ _).mpr ⟨hMem, h'.packed⟩).imp ?_)
    rintro beam o ⟨hEq, bands, hPacked⟩
    exact ⟨bands, hPacked.congr hEq⟩
  allocated := by rw [h'.allocated, h.allocated, List.flatMap_append, List.append_assoc]
  buffers := by rw [h'.buffers, h.buffers, List.flatMap_append, List.append_assoc]
  rbg := h'.rbg
  startSym := by
    have hSym := h.startSym
    have hSym' := h'.startSym
    omega
  used := h.used.trans h'.used
  budget := by
    have hBudget := h.budget
    have hBudget' := h'.budget
    rw [List.length_append, Nat.add_mul]
    omega
  inside := by
    have hSym := h.startSym
    have hSym' := h'.startSym
    have hUsed := h.used
    have hUsed' := h'.used
    intro a ha
    rw [List.flatMap_append] at ha
    rcases List.mem_append.mp ha with ha | ha
    · obtain ⟨hLow, hHigh⟩ := h.inside a ha
      exact ⟨hLow, by omega⟩
    · obtain ⟨hLow, hHigh⟩ := h'.inside a ha
      exact ⟨by omega, hHigh⟩

theorem loop_walked {beams : ActiveHarqMap}
    (hNacked : ∀ key ∈ beams.flatMap Prod.snd, ∃ dci, DlNacked bw feedback s.ueMap key dci)
    (hNodup : (beams.flatMap Prod.snd).Nodup) (hRbg : s.startingPoint.rbg = 0)
    (hSym : s.startingPoint.sym.toNat + beams.length * sym.toNat < 2 ^ 8)
    (hUsed : s.usedSym.toNat + beams.length * sym.toNat < 2 ^ 8) :
    ∃ r outs, loop bw sym feedback s beams = some r ∧
      Walked bw sym feedback s beams r outs := by
  induction beams generalizing s with
  | nil => exact ⟨s, [], rfl, Walked.refl hRbg⟩
  | cons beam beams ih =>
    rw [List.flatMap_cons] at hNodup
    rw [List.length_cons, Nat.add_mul, Nat.one_mul] at hSym hUsed
    obtain ⟨hBeamNodup, hRestNodup, hApart⟩ := List.nodup_append.mp hNodup
    have hNackedBeam : ∀ key ∈ beam.2, ∃ dci, DlNacked bw feedback s.ueMap key dci :=
      fun key hKey => hNacked key (List.mem_append_left _ hKey)
    obtain ⟨t, o, hBeam, hWalked, hFrame⟩ := beam_walked sym beam.1 hNackedBeam hBeamNodup hRbg
      (by omega) (by omega)
    have hFrame' : ∀ key ∈ beams.flatMap Prod.snd,
        (t.1.endBeam sym t.2).ueMap.dlProcess key = s.ueMap.dlProcess key :=
      fun key hKey => hFrame key fun hBeamKey => hApart key hBeamKey key hKey rfl
    have hNacked' : ∀ key ∈ beams.flatMap Prod.snd, ∃ dci,
        DlNacked bw feedback (t.1.endBeam sym t.2).ueMap key dci := by
      intro key hKey
      obtain ⟨dci, hNack⟩ := hNacked key (List.mem_append_right _ hKey)
      exact ⟨dci, hNack.congr (hFrame' key hKey)⟩
    have hBudget := hWalked.budget
    have hStart := hWalked.startSym
    have hUsedLe := hWalked.used
    rw [List.length_singleton, Nat.one_mul] at hBudget
    obtain ⟨r, outs, hLoop, hRest⟩ := ih hNacked' hRestNodup hWalked.rbg (by omega) (by omega)
    refine ⟨r, o :: outs, ?_, hWalked.trans hRest hFrame'⟩
    rw [loop, hBeam]
    exact hLoop

end Walk

end DlHarqState

/-- The processes of one beam, served within the bandwidth and the notching mask. -/
structure BeamServed (bw : UInt16) (notchedRbgsMask : List UInt8) (ueMap : UeMap)
    (keys : List HarqKey) (o : BeamOutcome) : Prop where
  partition : (o.scheduled ++ o.buffered.map DlHarqInfo.key).Perm keys
  repeats : List.Forall₂ (DlHarqState.Retransmits ueMap) o.scheduled o.allocs
  apart : o.allocs.Pairwise fun a b =>
    ∀ i : ℕ, ¬ (a.dci.rbgBitmask[i]? = some 1 ∧ b.dci.rbgBitmask[i]? = some 1)
  bandwidth : ∀ a ∈ o.allocs, a.dci.rbgBitmask.length = bw.toNat
  notched : ∀ a ∈ o.allocs, ∀ i : ℕ, a.dci.rbgBitmask[i]? = some 1 → Usable notchedRbgsMask i

/-- Each active process is retransmitted in this slot or buffered, within the symbols offered. -/
structure DlHarqServed (bw : UInt16) (symAvail : UInt8) (notchedRbgsMask : List UInt8)
    (activeDlHarq : ActiveHarqMap) (feedback : List DlHarqInfo) (s r : DlHarqState)
    (outs : List BeamOutcome) : Prop where
  beams : List.Forall₂ (fun beam => BeamServed bw notchedRbgsMask s.ueMap beam.2) activeDlHarq outs
  once : (outs.flatMap BeamOutcome.scheduled).Disjoint
    ((outs.flatMap BeamOutcome.buffered).map DlHarqInfo.key)
  feedbacks : ∀ f ∈ outs.flatMap BeamOutcome.buffered, f ∈ feedback
  allocated : r.slotAlloc.varTtiAllocInfo =
    s.slotAlloc.varTtiAllocInfo ++ outs.flatMap BeamOutcome.allocs
  buffers : r.dlHarqToRetransmit = s.dlHarqToRetransmit ++ outs.flatMap BeamOutcome.buffered
  budget : r.usedSym ≤ symAvail
  inside : ∀ a ∈ outs.flatMap BeamOutcome.allocs, a.dci.symbols.Inside
    s.startingPoint.sym.toNat (s.startingPoint.sym.toNat + symAvail.toNat)

/-- A call of `ScheduleDlHarq` as the slot scheduler makes it, past the assertions on the
processes. -/
structure DlHarqCall (bw : UInt16) (symAvail : UInt8) (activeDlHarq : ActiveHarqMap)
    (feedback : List DlHarqInfo) (s : DlHarqState) : Prop where
  rbg : s.startingPoint.rbg = 0
  beams : activeDlHarq ≠ []
  nacked : ∀ key ∈ activeDlHarq.flatMap Prod.snd, ∃ dci, DlNacked bw feedback s.ueMap key dci
  nodup : (activeDlHarq.flatMap Prod.snd).Nodup
  room : s.startingPoint.sym.toNat + symAvail.toNat < 2 ^ 8

theorem pairwise_of_forall₂ {α β : Type*} {R : α → β → Prop} {S : β → β → Prop}
    {T : α → α → Prop} (hST : ∀ a a' b b', R a b → R a' b' → S b b' → T a a') {l : List α}
    {m : List β} (h : List.Forall₂ R l m) (hPairwise : m.Pairwise S) : l.Pairwise T := by
  induction h with
  | nil => exact List.Pairwise.nil
  | @cons a b l m hab h ih =>
    obtain ⟨hHead, hTail⟩ := List.pairwise_cons.mp hPairwise
    refine List.pairwise_cons.mpr ⟨fun a' ha' => ?_, ih hTail⟩
    obtain ⟨i, hi, rfl⟩ := List.mem_iff_getElem.mp ha'
    have hi' : i < m.length := h.length_eq ▸ hi
    exact hST a l[i] b m[i] hab (h.get hi hi') (hHead _ (List.getElem_mem hi'))

section Served

variable {bw : UInt16} {sym symAvail : UInt8} {notchedRbgsMask : List UInt8}
  {activeDlHarq : ActiveHarqMap} {feedback : List DlHarqInfo} {s : DlHarqState}

theorem BeamPacked.served {ueMap : UeMap} {keys : List HarqKey} {o : BeamOutcome}
    {bands : List Block} (h : BeamPacked bw sym feedback ueMap keys o bands)
    (hUsable : ∀ i < packedWidth bw sym ueMap keys, Usable notchedRbgsMask i) :
    BeamServed bw notchedRbgsMask ueMap keys o where
  partition := h.partition
  repeats := h.repeats
  apart := by
    refine pairwise_of_forall₂ ?_ h.masks h.stacked.pairwise_apart
    rintro a a' b b' hMask hMask' hApart i ⟨hOne, hOne'⟩
    rw [hMask, getElem?_rbgMask_eq_one_iff] at hOne
    rw [hMask', getElem?_rbgMask_eq_one_iff] at hOne'
    rcases hApart with hApart | hApart
    · exact Nat.not_lt.mpr (hApart.trans hOne'.2.1) hOne.2.2
    · exact Nat.not_lt.mpr (hApart.trans hOne.2.1) hOne'.2.2
  bandwidth := by
    intro a ha
    obtain ⟨i, hi, rfl⟩ := List.mem_iff_getElem.mp ha
    have hMask := h.masks.get hi (h.masks.length_eq ▸ hi)
    rw [List.get_eq_getElem] at hMask
    rw [hMask, rbgMask, List.length_map, List.length_range]
  notched := by
    intro a ha i hOne
    obtain ⟨j, hj, rfl⟩ := List.mem_iff_getElem.mp ha
    have hj' : j < bands.length := h.masks.length_eq ▸ hj
    have hMask := h.masks.get hj hj'
    rw [List.get_eq_getElem, List.get_eq_getElem] at hMask
    rw [hMask, getElem?_rbgMask_eq_one_iff] at hOne
    have hInside := h.stacked.inside _ (List.getElem_mem hj')
    rw [Nat.zero_add, h.width] at hInside
    exact hUsable i (hOne.2.2.trans_le hInside.2)

/-- The retransmissions of a beam cover every RBG below the packed width. -/
theorem BeamPacked.exists_alloc {ueMap : UeMap} {keys : List HarqKey} {o : BeamOutcome}
    {bands : List Block} (h : BeamPacked bw sym feedback ueMap keys o bands) {i : ℕ}
    (hi : i < packedWidth bw sym ueMap keys) :
    ∃ a ∈ o.allocs, a.dci.rbgBitmask[i]? = some 1 := by
  rw [← h.width, ← Nat.zero_add (total bands)] at hi
  obtain ⟨b, hb, hIn⟩ := h.stacked.exists_mem (Nat.zero_le i) hi
  obtain ⟨j, hj, rfl⟩ := List.mem_iff_getElem.mp hb
  have hj' : j < o.allocs.length := h.masks.length_eq ▸ hj
  have hMask := h.masks.get hj' hj
  rw [List.get_eq_getElem, List.get_eq_getElem] at hMask
  refine ⟨_, List.getElem_mem hj', ?_⟩
  rw [hMask, getElem?_rbgMask_eq_one_iff]
  rw [Nat.zero_add] at hi
  exact ⟨hi.trans_le h.bound, hIn⟩

theorem DlHarqState.Walked.partition {r : DlHarqState} {beams : ActiveHarqMap}
    {outs : List BeamOutcome} (h : Walked bw sym feedback s beams r outs) :
    (outs.flatMap BeamOutcome.scheduled ++
      (outs.flatMap BeamOutcome.buffered).map DlHarqInfo.key).Perm (beams.flatMap Prod.snd) := by
  have hPacked := h.packed
  clear h
  induction hPacked with
  | nil => exact List.Perm.refl _
  | @cons beam o beams outs hBeam _ ih =>
    obtain ⟨bands, hPacked⟩ := hBeam
    rw [List.flatMap_cons, List.flatMap_cons, List.flatMap_cons, List.map_append]
    exact append_perm_append hPacked.partition ih

theorem symPerBeam_toNat (symAvail : UInt8) (activeDlHarq : ActiveHarqMap) :
    (symPerBeam symAvail activeDlHarq).toNat = symAvail.toNat / activeDlHarq.length := by
  rw [symPerBeam, UInt8.toNat_ofNat']
  exact Nat.mod_eq_of_lt ((Nat.div_le_self _ _).trans_lt symAvail.toNat_lt)

theorem length_mul_symPerBeam_le (symAvail : UInt8) (activeDlHarq : ActiveHarqMap) :
    activeDlHarq.length * (symPerBeam symAvail activeDlHarq).toNat ≤ symAvail.toNat := by
  rw [symPerBeam_toNat]
  exact Nat.mul_div_le _ _

theorem DlHarqCall.walked (hCall : DlHarqCall bw symAvail activeDlHarq feedback s) :
    ∃ r outs, scheduleDlHarq bw symAvail activeDlHarq feedback s = some r ∧
      DlHarqState.Walked bw (symPerBeam symAvail activeDlHarq) feedback { s with usedSym := 0 }
        activeDlHarq r outs := by
  have hLe := length_mul_symPerBeam_le symAvail activeDlHarq
  have hRoom := hCall.room
  obtain ⟨r, outs, hLoop, hWalked⟩ := DlHarqState.loop_walked
    (s := { s with usedSym := 0 }) hCall.nacked hCall.nodup hCall.rbg
    (Nat.lt_of_le_of_lt (Nat.add_le_add_left hLe _) hRoom)
    (Nat.lt_of_le_of_lt (Nat.add_le_add_left hLe _) (by
      rw [UInt8.toNat_zero]
      omega))
  refine ⟨r, outs, ?_, hWalked⟩
  rw [scheduleDlHarq, if_neg (not_not_intro hCall.rbg), if_neg hCall.beams, hLoop,
    Option.bind_some, if_pos hWalked.rbg]

theorem DlHarqServed.usable {r : DlHarqState} {outs : List BeamOutcome}
    (h : DlHarqServed bw symAvail notchedRbgsMask activeDlHarq feedback s r outs) :
    ∀ a ∈ outs.flatMap BeamOutcome.allocs, ∀ i : ℕ, a.dci.rbgBitmask[i]? = some 1 →
      Usable notchedRbgsMask i := by
  intro a ha i hOne
  obtain ⟨o, ho, ha⟩ := List.mem_flatMap.mp ha
  obtain ⟨n, hn, rfl⟩ := List.mem_iff_getElem.mp ho
  exact (h.beams.get (h.beams.length_eq ▸ hn) hn).notched a ha i hOne

/-- DL HARQ is served within the notching mask exactly when no RBG below the packed width of a beam
is notched. -/
theorem dlHarqServed_iff (hCall : DlHarqCall bw symAvail activeDlHarq feedback s) :
    (∃ r outs, scheduleDlHarq bw symAvail activeDlHarq feedback s = some r ∧
      DlHarqServed bw symAvail notchedRbgsMask activeDlHarq feedback s r outs) ↔
    ∀ beam ∈ activeDlHarq, ∀ i < packedWidth bw (symPerBeam symAvail activeDlHarq) s.ueMap beam.2,
      Usable notchedRbgsMask i := by
  obtain ⟨r, outs, hRun, hWalked⟩ := hCall.walked
  constructor
  · rintro ⟨r', outs', hRun', hServed⟩ beam hBeam i hi
    cases Option.some_inj.mp (hRun.symm.trans hRun')
    -- the allocations that the property splits by beam are those the run appended
    have hAllocs : outs.flatMap BeamOutcome.allocs = outs'.flatMap BeamOutcome.allocs :=
      List.append_cancel_left (hWalked.allocated.symm.trans hServed.allocated)
    obtain ⟨k, hk, rfl⟩ := List.mem_iff_getElem.mp hBeam
    have hk' : k < outs.length := hWalked.packed.length_eq ▸ hk
    obtain ⟨bands, hPacked⟩ := hWalked.packed.get hk hk'
    obtain ⟨a, ha, hOne⟩ := hPacked.exists_alloc hi
    refine hServed.usable a ?_ i hOne
    rw [← hAllocs]
    exact List.mem_flatMap.mpr ⟨_, List.getElem_mem hk', ha⟩
  · intro hUsable
    have hNodup := hWalked.partition.nodup_iff.mpr hCall.nodup
    have hBudget := hWalked.budget
    have hStart := hWalked.startSym
    rw [UInt8.toNat_zero] at hBudget hStart
    have hLe := length_mul_symPerBeam_le symAvail activeDlHarq
    refine ⟨r, outs, hRun, ?_, List.disjoint_of_nodup_append hNodup, ?_, hWalked.allocated,
      hWalked.buffers, ?_, ?_⟩
    · refine ((List.forall₂_and_left _ _).mpr ⟨hUsable, hWalked.packed⟩).imp ?_
      rintro beam o ⟨hBeam, bands, hPacked⟩
      exact hPacked.served hBeam
    · intro f hf
      obtain ⟨o, ho, hf⟩ := List.mem_flatMap.mp hf
      obtain ⟨n, hn, rfl⟩ := List.mem_iff_getElem.mp ho
      obtain ⟨bands, hPacked⟩ := hWalked.packed.get (hWalked.packed.length_eq ▸ hn) hn
      exact hPacked.feedbacks f hf
    · rw [UInt8.le_iff_toNat_le]
      omega
    · intro a ha
      obtain ⟨hLow, hHigh⟩ := hWalked.inside a ha
      refine ⟨hLow, hHigh.trans ?_⟩
      change r.startingPoint.sym.toNat + 0 = s.startingPoint.sym.toNat + _ at hStart
      omega

end Served

/-- Three symbols on the two upper of three RBGs. -/
def upperGrant : DciInfoElementTdma where
  rnti := 1
  format := .dl
  symStart := 1
  numSym := 3
  mcs := [9]
  tbSize := [400]
  ndi := [1]
  rv := [0]
  type := .data
  rbgBitmask := [0, 1, 1]

def upperUe : NrMacSchedulerUeInfo where
  rnti := 1
  dlHarq id := if id = 0 then some
    { active := true, status := .receivedFeedback, dciElement := some upperGrant
      nackStreamIndexes := [0] } else none
  ulHarq _ := none

def upperState : DlHarqState where
  startingPoint := { rbg := 0, sym := 1 }
  ueMap rnti := if rnti = 1 then some upperUe else none
  dlHarqToRetransmit := []
  slotAlloc := {}

def upperActive : ActiveHarqMap := [(0, [⟨1, 0⟩])]

def upperFeedback : List DlHarqInfo := [⟨1, 0, [.nack]⟩]

theorem upper_dlHarqCall : DlHarqCall 3 12 upperActive upperFeedback upperState where
  rbg := rfl
  beams := nofun
  nacked key hKey := by
    refine ⟨upperGrant, ?_⟩
    rw [List.mem_singleton.mp hKey]
    have hRv : ∀ rv ∈ upperGrant.rv, rv < 4 := by
      rintro rv (_ | ⟨_, ⟨⟩⟩)
      decide
    exact ⟨⟨_, rfl, rfl, rfl⟩, rfl, rfl, rfl, rfl, rfl, ⟨rfl, hRv⟩, rfl, by decide,
      ⟨_, List.mem_singleton.mpr rfl, rfl⟩⟩
  nodup := by decide
  room := by decide

theorem dlHarqServed_upper : DlHarqCall 3 12 upperActive upperFeedback upperState ∧
    ∃ r outs, scheduleDlHarq 3 12 upperActive upperFeedback upperState = some r ∧
      DlHarqServed 3 12 [1, 0, 1] upperActive upperFeedback upperState r outs :=
  ⟨upper_dlHarqCall, (dlHarqServed_iff upper_dlHarqCall).mpr (by decide)⟩

/-- The retransmission moves to RBG 0, which is notched and which the first grant had avoided. -/
theorem notched_rbg_used : DlHarqCall 3 12 upperActive upperFeedback upperState ∧
    ¬ ∃ r outs, scheduleDlHarq 3 12 upperActive upperFeedback upperState = some r ∧
      DlHarqServed 3 12 [0, 1, 1] upperActive upperFeedback upperState r outs := by
  refine ⟨upper_dlHarqCall, ?_⟩
  rintro ⟨r, outs, hRun, hServed⟩
  have hMasks : (scheduleDlHarq 3 12 upperActive upperFeedback upperState).map (fun r =>
      r.slotAlloc.varTtiAllocInfo.map fun a => a.dci.rbgBitmask) = some [[1, 0, 0]] := by decide
  rw [hRun, Option.map_some, Option.some_inj, hServed.allocated] at hMasks
  obtain ⟨a, ha, hMask⟩ := List.mem_map.mp (hMasks ▸ List.mem_singleton_self [1, 0, 0])
  have hUsable := hServed.usable a ha 0 (by rw [hMask]; rfl)
  exact absurd hUsable (by decide)

end Bullet.Mac
