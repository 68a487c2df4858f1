import Bullet.Mac.DlHarqServed
import Bullet.Mac.Slots
import Bullet.Mac.UlAllocations

/-! # Where the parts of a slot lie

UL takes its symbols from the end of the slot downwards and DL from its start upwards, part by part
and without a gap. The symbols that UL registers are those it took, so the two never meet, and the
PHY counts each symbol of the merged slot once.
-/

namespace Bullet.Mac

open Lib.Blocks Lib.ShelfPacking Lib.Tiles Phy

variable {μ : Type} {fmt : DciFormat}

theorem toNat_sub_one {sym : UInt8} (hPos : 0 < sym.toNat) : (sym - 1).toNat + 1 = sym.toNat := by
  have hLe : (1 : UInt8) ≤ sym := UInt8.le_iff_toNat_le.mpr hPos
  rw [UInt8.toNat_sub_of_le _ _ hLe, UInt8.toNat_one]
  exact Nat.sub_add_cancel hPos

/-- One allocation that goes on where the others end. -/
theorem Adds.one {slot new : SlotAllocInfo} {i j : ℕ} {a : VarTtiAllocInfo}
    (hAllocs : new.varTtiAllocInfo.Perm (a :: slot.varTtiAllocInfo))
    (hNumSym : new.numSymAlloc = slot.numSymAlloc + a.dci.numSym.toUInt32)
    (hSpans : Spans fmt.up i j a.dci.symbols) (hSome : a.dci.numSym ≠ 0)
    (hFormat : a.dci.format = fmt) : Adds fmt slot new i j [a] where
  allocs := hAllocs
  numSym := by
    rw [hNumSym, hSpans.dist_eq]
    exact congrArg (slot.numSymAlloc + ·) (UInt32.ofNat_uInt8ToNat a.dci.numSym).symm
  swept := by
    have hLen : 0 < a.dci.symbols.len :=
      Nat.pos_of_ne_zero fun hZero => hSome (UInt8.toNat_inj.mp hZero)
    refine Swept.shelf hSpans hLen (List.cons_ne_nil _ _) ?_ (List.pairwise_singleton _ _)
    intro b hb
    rw [List.mem_singleton.mp hb]
    rfl
  format b hb := List.mem_singleton.mp hb ▸ hFormat

/-- From `s` to `t` the slot got allocations behind those it has, in the symbols that were
available. -/
structure GoesOn (fmt : DciFormat) (s t : SlotScheduling μ) : Prop where
  adds : ∃ l, Adds fmt s.allocInfo t.allocInfo s.spoint.sym.toNat t.spoint.sym.toNat l
  avail : t.symAvail.toNat + Nat.dist s.spoint.sym.toNat t.spoint.sym.toNat = s.symAvail.toNat
  cleared : s.mac.ues.Cleared → t.mac.ues.Cleared
  filled : s.mac.ues.harq.UlGrantsFilled → t.mac.ues.harq.UlGrantsFilled

section GoesOn

variable {s t u : SlotScheduling μ}

theorem GoesOn.refl (fmt : DciFormat) (s : SlotScheduling μ) : GoesOn fmt s s where
  adds := ⟨[], Adds.refl fmt _ _⟩
  avail := by rw [Nat.dist_self, Nat.add_zero]
  cleared := id
  filled := id

theorem GoesOn.trans (h : GoesOn fmt s t) (h' : GoesOn fmt t u) : GoesOn fmt s u := by
  obtain ⟨l, hAdds⟩ := h.adds
  obtain ⟨m, hAdds'⟩ := h'.adds
  refine ⟨⟨m ++ l, hAdds.trans hAdds'⟩, ?_, h'.cleared ∘ h.cleared, h'.filled ∘ h.filled⟩
  have hDist := hAdds.swept.dist_append hAdds'.swept
  have hAvail := h.avail
  have hAvail' := h'.avail
  omega

/-- UL leaves as many symbols in front of it as it had. -/
theorem GoesOn.front (h : GoesOn .ul s t) {n : ℕ}
    (hRoom : s.symAvail.toNat + n = s.spoint.sym.toNat) :
    t.symAvail.toNat + n = t.spoint.sym.toNat := by
  obtain ⟨l, hAdds⟩ := h.adds
  have hLe : t.spoint.sym.toNat ≤ s.spoint.sym.toNat := Laid.le hAdds.swept
  have hAvail := h.avail
  rw [Nat.dist] at hAvail
  omega

/-- DL leaves as many symbols behind it as it had. -/
theorem GoesOn.behind (h : GoesOn .dl s t) :
    t.spoint.sym.toNat + t.symAvail.toNat = s.spoint.sym.toNat + s.symAvail.toNat := by
  obtain ⟨l, hAdds⟩ := h.adds
  have hLe : s.spoint.sym.toNat ≤ t.spoint.sym.toNat := Laid.le hAdds.swept
  have hAvail := h.avail
  rw [Nat.dist] at hAvail
  omega

end GoesOn

theorem SchedUes.Cleared.congr {ues ues' : SchedUes μ} (hCleared : ues.Cleared)
    (h : ues'.rbgs = ues.rbgs) : ues'.Cleared := fun fmt rnti =>
  (congrFun (congrFun h fmt) rnti).trans (hCleared fmt rnti)

/-- The users of the map are distinct, as are its beams. -/
structure ActiveUeMap.Distinct (active : ActiveUeMap) : Prop where
  beams : (active.map Prod.fst).Nodup
  users : (active.flatMap fun beam => beam.2.map Prod.fst).Nodup

theorem eraseUsers_spec (p : UePtrAndBufferReq → Bool) (active : ActiveUeMap) :
    (active.map fun beam => (beam.1, beam.2.eraseP p)).map Prod.fst = active.map Prod.fst ∧
      ((active.map fun beam => (beam.1, beam.2.eraseP p)).flatMap fun beam =>
        beam.2.map Prod.fst).Sublist (active.flatMap fun beam => beam.2.map Prod.fst) := by
  refine ⟨by rw [List.map_map]; rfl, ?_⟩
  induction active with
  | nil => exact List.Sublist.refl _
  | cons beam active ih =>
    rw [List.map_cons, List.flatMap_cons, List.flatMap_cons]
    exact (List.eraseP_sublist.map _).append ih

theorem ActiveUeMap.Distinct.withoutScheduled {active : ActiveUeMap} (h : active.Distinct)
    (allocations : List VarTtiAllocInfo) : (withoutScheduled allocations active).Distinct := by
  induction allocations generalizing active with
  | nil => exact h
  | cons a allocations ih =>
    obtain ⟨hBeams, hUsers⟩ := eraseUsers_spec (fun ue => ue.1 == a.dci.rnti) active
    exact ih ⟨hBeams ▸ h.beams, h.users.sublist hUsers⟩

/-! ## UL -/

/-- The SRS take one symbol after another in front of the starting point. -/
theorem allocateSrs_adds (cfg : SrsConfig) (rnti : UInt16) {n : ℕ} {a : SrsAllocation}
    (hRoom : n ≤ a.spoint.sym.toNat) :
    (∃ l, Adds .ul a.allocInfo (allocateSrs cfg rnti n a).allocInfo a.spoint.sym.toNat
      (allocateSrs cfg rnti n a).spoint.sym.toNat l) ∧
    (allocateSrs cfg rnti n a).spoint.sym.toNat + n = a.spoint.sym.toNat ∧
    (allocateSrs cfg rnti n a).used = a.used + UInt8.ofNat n := by
  induction n generalizing a with
  | zero => exact ⟨⟨[], Adds.refl .ul _ _⟩, rfl, (UInt8.add_zero _).symm⟩
  | succ n ih =>
    have hSym : (a.spoint.sym - 1).toNat + 1 = a.spoint.sym.toNat :=
      toNat_sub_one ((Nat.succ_pos n).trans_le hRoom)
    let next : SrsAllocation :=
      { rnti := rnti
        used := a.used + 1
        spoint := { a.spoint with sym := a.spoint.sym - 1 }
        allocInfo := ⟨a.allocInfo.numSymAlloc + 1,
          .ofDci (cfg.srsDci rnti (a.spoint.sym - 1)) :: a.allocInfo.varTtiAllocInfo⟩ }
    have hNext : allocateSrs cfg rnti (n + 1) a = allocateSrs cfg rnti n next := rfl
    have hFirst : Adds .ul a.allocInfo next.allocInfo a.spoint.sym.toNat next.spoint.sym.toNat
        [.ofDci (cfg.srsDci rnti (a.spoint.sym - 1))] :=
      Adds.one (List.Perm.refl _) rfl ⟨rfl, hSym⟩ (show (1 : UInt8) ≠ 0 by decide) rfl
    have hLeft : next.spoint.sym.toNat + 1 = a.spoint.sym.toNat := hSym
    obtain ⟨⟨l, hRest⟩, hCount, hUsed⟩ := ih (a := next) (by omega)
    rw [hNext]
    refine ⟨⟨_, hFirst.trans hRest⟩, by omega, ?_⟩
    rw [hUsed, UInt8.ofNat_add]
    change a.used + 1 + _ = _
    rw [UInt8.add_assoc, UInt8.add_comm 1]
    rfl

namespace UlHarqState

variable {bw : UInt16} {s t u : UlHarqState}

/-- From `s` to `t` the walk retransmitted in front of the starting point. -/
structure GoesOn (s t : UlHarqState) : Prop where
  adds : ∃ l, Adds .ul s.slotAlloc t.slotAlloc s.startingPoint.sym.toNat
    t.startingPoint.sym.toNat l
  symAvail : t.symAvail.toNat + Nat.dist s.startingPoint.sym.toNat t.startingPoint.sym.toNat =
    s.symAvail.toNat
  symUsed : t.symUsed + t.symAvail = s.symUsed + s.symAvail
  filled : t.ueMap.UlGrantsFilled

theorem GoesOn.refl (hFilled : s.ueMap.UlGrantsFilled) : GoesOn s s where
  adds := ⟨[], Adds.refl .ul _ _⟩
  symAvail := by rw [Nat.dist_self, Nat.add_zero]
  symUsed := rfl
  filled := hFilled

theorem GoesOn.trans (h : GoesOn s t) (h' : GoesOn t u) : GoesOn s u := by
  obtain ⟨l, hAdds⟩ := h.adds
  obtain ⟨m, hAdds'⟩ := h'.adds
  refine ⟨⟨m ++ l, hAdds.trans hAdds'⟩, ?_, h'.symUsed.trans h.symUsed, h'.filled⟩
  have hDist := hAdds.swept.dist_append hAdds'.swept
  have hAvail := h.symAvail
  have hAvail' := h'.symAvail
  omega

/-- What is available still lies in front of the starting point. -/
theorem GoesOn.room (h : GoesOn s t) (hRoom : s.symAvail.toNat ≤ s.startingPoint.sym.toNat) :
    t.symAvail.toNat ≤ t.startingPoint.sym.toNat := by
  obtain ⟨l, hAdds⟩ := h.adds
  have hLe : t.startingPoint.sym.toNat ≤ s.startingPoint.sym.toNat := Laid.le hAdds.swept
  have hAvail := h.symAvail
  rw [Nat.dist] at hAvail
  omega

/-- A retransmission takes the symbols of its grant in front of the starting point. -/
theorem sent_goesOn {h : UlHarqInfo} {ue : NrMacSchedulerUeInfo} {p : HarqProcess}
    {dci : DciInfoElementTdma} {rv : UInt8} (hFilled : s.ueMap.UlGrantsFilled)
    (hRoom : s.symAvail.toNat ≤ s.startingPoint.sym.toNat)
    (hUe : s.ueMap h.key.rnti = some ue) (hFit : dci.numSym ≤ s.symAvail)
    (hSome : dci.numSym ≠ 0) (hFormat : dci.format = .ul) :
    GoesOn s (s.sent bw h ue p dci rv) := by
  have hLe := UInt8.le_iff_toNat_le.mp hFit
  have hSym : (s.startingPoint.sym - dci.numSym).toNat + dci.numSym.toNat =
      s.startingPoint.sym.toNat := by
    rw [UInt8.toNat_sub_of_le _ _ (UInt8.le_iff_toNat_le.mpr (hLe.trans hRoom))]
    omega
  have hSpans : Spans DciFormat.ul.up s.startingPoint.sym.toNat
      (s.startingPoint.sym - dci.numSym).toNat
      (s.retxDci h.harqProcessId dci rv).symbols := ⟨rfl, hSym⟩
  refine ⟨⟨[.ofDci (s.retxDci h.harqProcessId dci rv)], ?_⟩, ?_, ?_, ?_⟩
  · exact Adds.one (List.Perm.refl _) rfl hSpans hSome hFormat
  · change (s.symAvail - dci.numSym).toNat + _ = _
    have hDist := hSpans.dist_eq
    change _ = dci.numSym.toNat at hDist
    change _ + Nat.dist _ (s.startingPoint.sym - dci.numSym).toNat = _
    rw [hDist, UInt8.toNat_sub_of_le _ _ hFit]
    omega
  · change s.symUsed + dci.numSym + (s.symAvail - dci.numSym) = _
    grind
  · refine @UeMap.UlGrantsFilled.putUlHarq s.ueMap hFilled h.key ue
      { ue with ulMRBRetx := dci.numSym.toUInt32 * bw.toUInt32 } hUe rfl _ fun dci' hDci => ?_
    cases hDci
    exact hSome

/-- A grant that does not fit any more is kept for later. -/
theorem held_goesOn {h : UlHarqInfo} {ue : NrMacSchedulerUeInfo} {p : HarqProcess}
    (hFilled : s.ueMap.UlGrantsFilled) (hUe : s.ueMap h.key.rnti = some ue)
    (hProcess : s.ueMap.ulProcess h.key = some p) : GoesOn s (s.held h ue p) where
  adds := ⟨[], Adds.refl .ul _ _⟩
  symAvail := by
    change s.symAvail.toNat + Nat.dist s.startingPoint.sym.toNat _ = _
    rw [held, Nat.dist_self, Nat.add_zero]
  symUsed := rfl
  filled := hFilled.putUlHarq hUe rfl fun dci hDci => hFilled h.key p dci hProcess hDci

theorem step_goesOn {h : UlHarqInfo} (hFilled : s.ueMap.UlGrantsFilled)
    (hRoom : s.symAvail.toNat ≤ s.startingPoint.sym.toNat) (hStep : step bw s h = some t) :
    GoesOn s t := by
  rw [step] at hStep
  split at hStep
  · cases hStep
  · obtain ⟨ue, hUe, hStep⟩ := Option.bind_eq_some_iff.mp hStep
    obtain ⟨p, hP, hStep⟩ := Option.bind_eq_some_iff.mp hStep
    have hProcess : s.ueMap.ulProcess h.key = some p := Option.bind_eq_some_iff.mpr ⟨ue, hUe, hP⟩
    split at hStep
    · cases hStep
    · obtain ⟨dci, hDci, hStep⟩ := Option.bind_eq_some_iff.mp hStep
      split at hStep
      · next hFit =>
        split at hStep
        · cases hStep
        · next hFormat =>
          push Not at hFormat
          obtain ⟨rv, -, hStep⟩ := Option.bind_eq_some_iff.mp hStep
          cases hStep
          exact sent_goesOn hFilled hRoom hUe hFit (hFilled h.key p dci hProcess hDci) hFormat.1
      · cases hStep
        exact held_goesOn hFilled hUe hProcess

theorem loop_goesOn {l : List UlHarqInfo} (hFilled : s.ueMap.UlGrantsFilled)
    (hRoom : s.symAvail.toNat ≤ s.startingPoint.sym.toNat) (h : loop bw s l = some t) :
    GoesOn s t := by
  induction l generalizing s with
  | nil =>
    cases h
    exact GoesOn.refl hFilled
  | cons f l ih =>
    rw [loop] at h
    split at h
    · cases h
      exact GoesOn.refl hFilled
    · obtain ⟨u, hStep, h⟩ := Option.bind_eq_some_iff.mp h
      have hFirst := step_goesOn hFilled hRoom hStep
      exact hFirst.trans (ih hFirst.filled (hFirst.room hRoom) h)

end UlHarqState

namespace CellConfig

variable {cfg : CellConfig μ} {e : UlTrigger} {s t : SlotScheduling μ}

/-- The slot has room for its control symbols and no more symbols than UL counts, and with TDMA the
masks that are set are those of the bandwidth. -/
structure Fits (cfg : CellConfig μ) : Prop where
  slot : cfg.symbolsPerSlot.toNat ≤ 15
  ctrl : cfg.dlCtrlSymbols.toNat + cfg.ulCtrlSymbols.toNat ≤ cfg.symbolsPerSlot.toNat
  mask : cfg.scheduler.MaskFits

theorem scheduleSrs_goesOn (hRoom : s.symAvail.toNat ≤ s.spoint.sym.toNat)
    (h : cfg.scheduleSrs e s = some t) : GoesOn .ul s t := by
  rw [scheduleSrs] at h
  split at h
  · cases h
    exact GoesOn.refl .ul s
  · split at h
    · cases h
    · next hFew =>
      have hLe := UInt8.le_iff_toNat_le.mp (UInt8.not_lt.mp hFew)
      obtain ⟨a, hSrs, h⟩ := Option.bind_eq_some_iff.mp h
      cases h
      obtain ⟨rnti, -, hSrs⟩ := Option.bind_eq_some_iff.mp hSrs
      cases hSrs
      split
      · exact ⟨⟨[], Adds.refl .ul _ _⟩, by rw [UInt8.sub_zero, Nat.dist_self, Nat.add_zero], id, id⟩
      · have hStart : cfg.srsCtrlSymbols.toNat ≤
            (⟨rnti, 0, s.spoint, s.allocInfo⟩ : SrsAllocation).spoint.sym.toNat := hLe.trans hRoom
        obtain ⟨hAdds, hCount, hUsed⟩ := allocateSrs_adds cfg.toSrsConfig rnti hStart
        refine ⟨hAdds, ?_, id, id⟩
        rw [hUsed, UInt8.zero_add, UInt8.ofNat_toNat,
          UInt8.toNat_sub_of_le _ _ (UInt8.not_lt.mp hFew), Nat.dist]
        dsimp only at hCount ⊢
        omega

theorem retransmitUl_goesOn (hRoom : s.symAvail.toNat ≤ s.spoint.sym.toNat)
    (hFilled : s.mac.ues.harq.UlGrantsFilled) (h : cfg.retransmitUl e s = some t) :
    GoesOn .ul s t := by
  rw [retransmitUl] at h
  split at h
  · cases h
  · split at h
    · cases h
      exact GoesOn.refl .ul s
    · obtain ⟨u, hHarq, h⟩ := Option.bind_eq_some_iff.mp h
      split at h
      · cases h
      · cases h
        rw [scheduleUlHarq] at hHarq
        split at hHarq
        · obtain ⟨u', hLoop, hHarq⟩ := Option.bind_eq_some_iff.mp hHarq
          have hWalk := UlHarqState.loop_goesOn hFilled hRoom hLoop
          have hResult : u' = u := by
            split at hHarq
            · cases hHarq
            · split at hHarq
              · exact Option.some_inj.mp hHarq
              · cases hHarq
          subst hResult
          have hLeft : s.symAvail - u'.symUsed = u'.symAvail := by
            have hUsed := hWalk.symUsed
            change u'.symUsed + u'.symAvail = 0 + s.symAvail at hUsed
            grind
          refine ⟨hWalk.adds, ?_, fun hCleared => hCleared.congr rfl, fun _ => hWalk.filled⟩
          change (s.symAvail - u'.symUsed).toNat + _ = _
          rw [hLeft]
          exact hWalk.symAvail
        · cases hHarq

theorem serveRequests_goesOn (h : cfg.serveRequests e s = some t) : GoesOn .ul s t := by
  rw [serveRequests] at h
  split at h
  · cases h
  · split at h
    · cases h
      exact GoesOn.refl .ul s
    · obtain ⟨ulLCG, -, h⟩ := Option.bind_eq_some_iff.mp h
      cases h
      exact ⟨⟨[], Adds.refl .ul _ _⟩, by rw [Nat.dist_self, Nat.add_zero],
        fun hCleared => hCleared.congr rfl, id⟩

theorem scheduleUlData_goesOn (hMask : cfg.scheduler.MaskFits) (hActive : e.activeUl.Distinct)
    (hCleared : s.mac.ues.Cleared) (h : cfg.scheduleUlData e s = some t) : GoesOn .ul s t := by
  rw [scheduleUlData] at h
  dsimp only at h
  split at h
  · cases h
    exact GoesOn.refl .ul s
  · obtain ⟨u, hData, h⟩ := Option.bind_eq_some_iff.mp h
    cases h
    have hDistinct := hActive.withoutScheduled s.allocInfo.varTtiAllocInfo
    have hAvail : s.symAvail.toUInt32.toNat < 2 ^ 8 := by
      rw [UInt8.toNat_toUInt32]
      exact s.symAvail.toNat_lt
    obtain ⟨l, hLaid⟩ := MacScheduler.doScheduleUlData_laid hMask hAvail hDistinct.beams
      hDistinct.users hCleared hData
    have hWithin := hLaid.within
    rw [UInt8.toNat_toUInt32] at hWithin
    refine ⟨⟨l, hLaid.adds⟩, ?_, hLaid.cleared, hLaid.filled⟩
    rw [UInt8.toNat_sub_of_le _ _ (UInt8.le_iff_toNat_le.mpr hWithin), hLaid.usedSym]
    rw [hLaid.usedSym] at hWithin
    exact Nat.sub_add_cancel hWithin

/-- The symbols in front of the UL part that it has to leave. -/
def front (cfg : CellConfig μ) (type : LteNrTddSlotType) : ℕ :=
  if type = .f then cfg.dlCtrlSymbols.toNat else 0

theorem lastSym_toNat (hFits : cfg.Fits) (hUlCtrl : cfg.ulCtrlSymbols = 1) :
    cfg.lastSym.toNat + 1 = cfg.symbolsPerSlot.toNat := by
  have hRoom := hFits.ctrl
  rw [hUlCtrl, UInt8.toNat_one] at hRoom
  rw [SrsConfig.lastSym, hUlCtrl]
  exact toNat_sub_one (by omega)

theorem dataSymPerSlot_add_front (hFits : cfg.Fits) (hUlCtrl : cfg.ulCtrlSymbols = 1)
    (type : LteNrTddSlotType) :
    (cfg.dataSymPerSlot type).toNat + cfg.front type = cfg.lastSym.toNat := by
  have hRoom := hFits.ctrl
  have hLast := lastSym_toNat hFits hUlCtrl
  rw [hUlCtrl, UInt8.toNat_one] at hRoom
  rw [SrsConfig.dataSymPerSlot, front]
  split
  · rw [UInt8.toNat_sub_of_le _ _ (UInt8.le_iff_toNat_le.mpr (by omega))]
    omega
  · rfl

/-- The control symbol at the end of the slot. -/
theorem ulCtrl_adds (hFits : cfg.Fits) (hUlCtrl : cfg.ulCtrlSymbols = 1) :
    Adds .ul {} ⟨cfg.ulCtrlSymbols.toUInt32, cfg.ctrlSyms cfg.lastSym cfg.ulCtrlSymbols .ul⟩
      cfg.symbolsPerSlot.toNat cfg.lastSym.toNat
      [.ofDci (cfg.ctrlDci .ul (cfg.lastSym + UInt8.ofNat 0))] := by
  rw [hUlCtrl]
  refine Adds.one (List.Perm.refl _) rfl ⟨?_, ?_⟩ (show (1 : UInt8) ≠ 0 by decide) rfl
  · exact congrArg UInt8.toNat (UInt8.add_zero _)
  · change (cfg.lastSym + 0).toNat + 1 = _
    rw [UInt8.add_zero, lastSym_toNat hFits hUlCtrl]

/-- The UL part of a slot lies at its end, and what is left lies in front of it. -/
structure UlPart (cfg : CellConfig μ) (type : LteNrTddSlotType) (t : SlotScheduling μ)
    (l : List VarTtiAllocInfo) : Prop where
  adds : Adds .ul {} t.allocInfo cfg.symbolsPerSlot.toNat t.spoint.sym.toNat l
  avail : t.symAvail.toNat + cfg.front type = t.spoint.sym.toNat
  ulCtrl : cfg.ulCtrlSymbols = 1
  cleared : t.mac.ues.Cleared
  filled : t.mac.ues.harq.UlGrantsFilled

theorem scheduleUl_part {mac : MacState μ} (hFits : cfg.Fits) (hActive : e.activeUl.Distinct)
    (hCleared : mac.ues.Cleared) (hFilled : mac.ues.harq.UlGrantsFilled)
    (h : cfg.scheduleUl e mac = some t) : ∃ l, cfg.UlPart e.type t l := by
  rw [scheduleUl] at h
  obtain ⟨ctrl, hCtrl, h⟩ := Option.bind_eq_some_iff.mp h
  cases hCtrl
  split at h
  · cases h
  · next hOne =>
    obtain ⟨s₁, hSrs, h⟩ := Option.bind_eq_some_iff.mp h
    obtain ⟨s₂, hHarq, h⟩ := Option.bind_eq_some_iff.mp h
    obtain ⟨s₃, hServe, hData⟩ := Option.bind_eq_some_iff.mp h
    have hUlCtrl : cfg.ulCtrlSymbols = 1 := by
      rw [not_ne_iff, List.nil_append, ctrlSyms, List.length_map, List.length_range] at hOne
      exact UInt8.toNat_inj.mp hOne
    have hLastSym : cfg.symbolsPerSlot - 1 = cfg.lastSym := by rw [SrsConfig.lastSym, hUlCtrl]
    rw [hLastSym] at hSrs
    have hFront := dataSymPerSlot_add_front hFits hUlCtrl e.type
    have hRoom : (cfg.dataSymPerSlot e.type).toNat ≤ cfg.lastSym.toNat :=
      hFront ▸ Nat.le_add_right _ _
    have hSrsOn := scheduleSrs_goesOn hRoom hSrs
    have hFront₁ := hSrsOn.front hFront
    have hHarqOn := retransmitUl_goesOn (by omega) (hSrsOn.filled hFilled) hHarq
    have hServeOn := serveRequests_goesOn hServe
    have hBefore := (hSrsOn.trans hHarqOn).trans hServeOn
    have hAll := hBefore.trans
      (scheduleUlData_goesOn hFits.mask hActive (hBefore.cleared hCleared) hData)
    obtain ⟨l, hAdds⟩ := hAll.adds
    exact ⟨_, (ulCtrl_adds hFits hUlCtrl).trans hAdds, hAll.front hFront, hUlCtrl,
      hAll.cleared hCleared, hAll.filled hFilled⟩

/-! ## The symbols that UL registers -/

theorem symToAl_table {dcis : List DciInfoElementTdma} {symbols : List UInt8}
    (h : NrMacSchedulerNs3.symToAl dcis = some symbols) :
    symbols.map UInt8.toNat = table 15 (dcis.map DciInfoElementTdma.symbols) := by
  suffices hFold : ∀ acc : List UInt8, dcis.foldlM (fun symbols dci =>
      if dci.symStart.toNat < 15 then some (symbols.set dci.symStart.toNat dci.numSym) else none)
        acc = some symbols → symbols.map UInt8.toNat =
      (dcis.map DciInfoElementTdma.symbols).foldl (fun t b => t.set b.start b.len)
        (acc.map UInt8.toNat) by
    have hTable := hFold _ h
    rwa [List.map_replicate] at hTable
  clear h
  induction dcis with
  | nil =>
    intro acc h
    cases h
    rfl
  | cons dci dcis ih =>
    intro acc h
    obtain ⟨next, hNext, h⟩ := Option.bind_eq_some_iff.mp h
    obtain ⟨-, hNext⟩ := Option.ite_none_right_eq_some.mp hNext
    cases hNext
    rw [ih _ h, List.map_set]
    rfl

/-- The symbols that are registered are those from the first UL allocation to the end of the
slot. -/
theorem registerUl_totUlSym {slot : SlotAllocInfo} {elem elem' : SlotElem} {i j : ℕ}
    {l : List VarTtiAllocInfo} (hAdds : Adds .ul {} slot i j l) (hSlot : i ≤ 15)
    (hNew : elem.totUlSym = 0) (h : registerUl elem slot = some elem') :
    elem'.totUlSym.toNat + j = i := by
  obtain ⟨symbols, hSymbols, h⟩ := Option.bind_eq_some_iff.mp h
  obtain ⟨allocations, -, h⟩ := Option.bind_eq_some_iff.mp h
  cases h
  have hPerm : slot.varTtiAllocInfo.Perm l := by simpa using hAdds.allocs
  have hUl : (slot.varTtiAllocInfo.map VarTtiAllocInfo.dci).filter (·.format = .ul) =
      slot.varTtiAllocInfo.map VarTtiAllocInfo.dci := by
    refine List.filter_eq_self.mpr fun dci hDci => ?_
    obtain ⟨a, ha, rfl⟩ := List.mem_map.mp hDci
    exact decide_eq_true (hAdds.format a (hPerm.subset ha))
  rw [hUl] at hSymbols
  have hLaid : Laid j i (slot.varTtiAllocInfo.map VarTtiAllocInfo.tile) :=
    Laid.perm hAdds.swept (hPerm.map _)
  have hRows : (slot.varTtiAllocInfo.map VarTtiAllocInfo.dci).map DciInfoElementTdma.symbols =
      (slot.varTtiAllocInfo.map VarTtiAllocInfo.tile).map Tile.rows := by
    rw [List.map_map, List.map_map]
    rfl
  have hTable := symToAl_table hSymbols
  have hSum : (symbols.map UInt8.toNat).sum = i - j := by
    rw [hTable, hRows, sum_table]
    · exact hLaid.height_eq
    · intro b hb c hc hStart
      obtain ⟨t, ht, rfl⟩ := List.mem_map.mp hb
      obtain ⟨u, hu, rfl⟩ := List.mem_map.mp hc
      exact hLaid.rows_eq ht hu hStart
    · intro b hb
      obtain ⟨t, ht, rfl⟩ := List.mem_map.mp hb
      have hPos := hLaid.filled t ht
      have hInside := (hLaid.inside t ht).2
      rw [Block.stop] at hInside
      omega
  have hTotal : (symbols.foldl (· + ·) (0 : UInt8)).toNat = i - j := by
    rw [UlAllocations.foldl_add_toNat, hSum, UInt8.toNat_zero, Nat.zero_add]
    rw [hSum, UInt8.toNat_zero]
    omega
  have hLe := hLaid.le
  change (symbols.foldl (· + ·) elem.totUlSym).toNat + j = i
  rw [hNew, hTotal]
  omega

theorem UlPart.registered {type : LteNrTddSlotType} {l : List VarTtiAllocInfo}
    {elem elem' : SlotElem} (h : cfg.UlPart type t l) (hFits : cfg.Fits) (hNew : elem.totUlSym = 0)
    (hRegister : registerUl elem t.allocInfo = some elem') : cfg.UlRegistered type t elem' := by
  have hTotal := registerUl_totUlSym h.adds hFits.slot hNew hRegister
  have hFront := dataSymPerSlot_add_front hFits h.ulCtrl type
  have hLast := lastSym_toNat hFits h.ulCtrl
  have hAvail := h.avail
  rw [UlRegistered, h.ulCtrl, UInt8.toNat_one]
  omega

end CellConfig

/-! ## DL -/

namespace DlHarqState

variable {bw : UInt16} {n : UInt8} {feedback : List DlHarqInfo} {s t u : DlHarqState}
  {l : List VarTtiAllocInfo}

/-- From `s` to `t` the inner loop put the retransmissions `l` side by side on `n` symbols. -/
structure SideBySide (bw : UInt16) (n : UInt8) (s t : DlHarqState) (l : List VarTtiAllocInfo) :
    Prop where
  allocs : t.slotAlloc.varTtiAllocInfo.Perm (l ++ s.slotAlloc.varTtiAllocInfo)
  numSym : t.slotAlloc.numSymAlloc = s.slotAlloc.numSymAlloc
  usedSym : t.usedSym = s.usedSym
  sym : t.startingPoint.sym = s.startingPoint.sym
  bound : t.startingPoint.rbg.toNat ≤ bw.toNat
  rows : ∀ a ∈ l, a.dci.symbols = ⟨s.startingPoint.sym.toNat, n.toNat⟩
  cols : ∀ a ∈ l, ∀ i ∈ a.tile.cols, i < t.startingPoint.rbg.toNat
  apart : l.Pairwise fun a b => ∀ i ∈ a.tile.cols, i ∉ b.tile.cols
  format : ∀ a ∈ l, a.dci.format = .dl
  height : ∀ a ∈ l, n ≠ 0
  idle : l = [] → t.startingPoint.rbg = s.startingPoint.rbg
  filled : s.ueMap.UlGrantsFilled → t.ueMap.UlGrantsFilled

theorem ulProcess_setDlMRBRetx {ueMap ueMap' : UeMap} {rnti : UInt16} {v : UInt32}
    (h : ueMap.setDlMRBRetx rnti v = some ueMap') (key : HarqKey) :
    ueMap'.ulProcess key = ueMap.ulProcess key := by
  obtain ⟨ue, hUe, rfl⟩ := Option.map_eq_some_iff.mp h
  refine ulProcess_congr ?_
  rcases eq_or_ne key.rnti rnti with hEq | hNe
  · rw [hEq, Function.update_self, hUe]
    rfl
  · rw [Function.update_of_ne hNe]

/-- A retransmission gets the RBGs from the starting point on. -/
theorem retransmit_cases {key : HarqKey} {p : HarqProcess} {dci : DciInfoElementTdma}
    (h : s.retransmit n key p dci = some t) :
    dci.format = .dl ∧ n ≠ 0 ∧ ∃ q ueMap v,
      (s.ueMap.putDlHarq key q).setDlMRBRetx dci.rnti v = some ueMap ∧
      t = { s with
        startingPoint.rbg := s.startingPoint.rbg + UInt32.ofNat (width n.toNat dci.units)
        ueMap := ueMap
        slotAlloc.varTtiAllocInfo := s.slotAlloc.varTtiAllocInfo ++
          [{ dci := s.retxDci n p.nackStreamIndexes dci (width n.toNat dci.units)
             rlcPduInfo := p.rlcPduInfo }] } := by
  rw [retransmit] at h
  obtain ⟨hStreams, h⟩ := Option.ite_none_left_eq_some.mp h
  obtain ⟨hSym, h⟩ := Option.ite_none_left_eq_some.mp h
  obtain ⟨-, h⟩ := Option.ite_none_left_eq_some.mp h
  obtain ⟨ueMap, hSet, h⟩ := Option.bind_eq_some_iff.mp h
  cases h
  push Not at hStreams
  exact ⟨hStreams.1, hSym, _, ueMap, _, hSet, rfl⟩

theorem SideBySide.retransmit {key : HarqKey} {p : HarqProcess} {dci : DciInfoElementTdma}
    (h : SideBySide bw n s t l)
    (hWidth : width n.toNat dci.units ≤ bw.toNat - t.startingPoint.rbg.toNat)
    (hRetransmit : t.retransmit n key p dci = some u) : ∃ a, SideBySide bw n s u (a :: l) := by
  obtain ⟨hFormat, hSome, q, ueMap, w, hSet, rfl⟩ := retransmit_cases hRetransmit
  have hBw := bw.toNat_lt
  have hBound := h.bound
  have hRbg : (t.startingPoint.rbg + UInt32.ofNat (width n.toNat dci.units)).toNat =
      t.startingPoint.rbg.toNat + width n.toNat dci.units := by
    rw [UInt32.toNat_add, UInt32.toNat_ofNat']
    omega
  have hCols : ∀ i : ℕ, (rbgMask dci.rbgBitmask.length t.startingPoint.rbg.toNat
      (width n.toNat dci.units))[i]? = some 1 → t.startingPoint.rbg.toNat ≤ i ∧
        i < t.startingPoint.rbg.toNat + width n.toNat dci.units := fun i hi =>
    (getElem?_rbgMask_eq_one_iff.mp hi).2
  refine ⟨{ dci := t.retxDci n p.nackStreamIndexes dci (width n.toNat dci.units)
            rlcPduInfo := p.rlcPduInfo }, ?_, h.numSym, h.usedSym, h.sym, ?_, ?_, ?_, ?_, ?_, ?_,
    fun hNil => absurd hNil (List.cons_ne_nil _ _), fun hFilled => ?_⟩
  · exact (List.perm_append_singleton _ _).trans (h.allocs.cons _)
  · change (t.startingPoint.rbg + _).toNat ≤ _
    rw [hRbg]
    omega
  · refine List.forall_mem_cons.mpr ⟨?_, h.rows⟩
    exact congrArg (fun sym : UInt8 => (⟨sym.toNat, n.toNat⟩ : Block)) h.sym
  · change ∀ a ∈ (_ : List VarTtiAllocInfo), ∀ i ∈ a.tile.cols,
      i < (t.startingPoint.rbg + UInt32.ofNat (width n.toNat dci.units)).toNat
    rw [hRbg]
    refine List.forall_mem_cons.mpr ⟨fun i hi => (hCols i hi).2, fun a ha i hi => ?_⟩
    exact (h.cols a ha i hi).trans_le (Nat.le_add_right _ _)
  · refine List.pairwise_cons.mpr ⟨fun a ha i hi hi' => ?_, h.apart⟩
    exact Nat.not_lt.mpr (hCols i hi).1 (h.cols a ha i hi')
  · exact List.forall_mem_cons.mpr ⟨hFormat, h.format⟩
  · exact List.forall_mem_cons.mpr ⟨hSome, h.height⟩
  · exact (h.filled hFilled).congr fun key' =>
      (ulProcess_setDlMRBRetx hSet key').trans (ulProcess_putDlHarq _ _ _ _)

theorem SideBySide.step {key : HarqKey} {ues ues' : List UInt16} (h : SideBySide bw n s t l)
    (hCount : ues.length = l.length) (hStep : step bw n feedback (t, ues) key = some (u, ues')) :
    ∃ l', SideBySide bw n s u l' ∧ ues'.length = l'.length := by
  obtain ⟨p, -, hStep⟩ := Option.bind_eq_some_iff.mp hStep
  split at hStep
  · cases hStep
  · obtain ⟨dci, -, hStep⟩ := Option.bind_eq_some_iff.mp hStep
    dsimp only at hStep
    split at hStep
    · obtain ⟨kept, -, hStep⟩ := Option.bind_eq_some_iff.mp hStep
      cases hStep
      exact ⟨l, ⟨h.allocs, h.numSym, h.usedSym, h.sym, h.bound, h.rows, h.cols, h.apart, h.format,
        h.height, h.idle, fun hFilled => (h.filled hFilled).congr fun key' =>
          ulProcess_putDlHarq _ _ _ _⟩, hCount⟩
    · next hFit =>
      obtain ⟨v, hRetransmit, hStep⟩ := Option.bind_eq_some_iff.mp hStep
      cases hStep
      rw [rbgAvail_toNat h.bound, not_or, Nat.not_lt] at hFit
      obtain ⟨a, hNext⟩ := h.retransmit (width_le hFit.2) hRetransmit
      refine ⟨a :: l, hNext, ?_⟩
      rw [List.length_append, List.length_cons, List.length_cons, hCount, List.length_nil]

theorem SideBySide.run {keys : List HarqKey} {ues ues' : List UInt16} (h : SideBySide bw n s t l)
    (hCount : ues.length = l.length)
    (hRun : beamLoop bw n feedback (t, ues) keys = some (u, ues')) :
    ∃ l', SideBySide bw n s u l' ∧ ues'.length = l'.length := by
  induction keys generalizing t l ues with
  | nil =>
    cases hRun
    exact ⟨l, h, hCount⟩
  | cons key keys ih =>
    obtain ⟨⟨v, ues₁⟩, hStep, hRun⟩ := Option.bind_eq_some_iff.mp hRun
    obtain ⟨l', hNext, hNextCount⟩ := h.step hCount hStep
    exact ih hNext hNextCount hRun

/-- From `s` to `t` the beams were retransmitted one behind the other, in at most `bound`
symbols. -/
structure GoesOn (bound : ℕ) (s t : DlHarqState) : Prop where
  adds : ∃ l, Adds .dl s.slotAlloc t.slotAlloc s.startingPoint.sym.toNat
    t.startingPoint.sym.toNat l
  within : Nat.dist s.startingPoint.sym.toNat t.startingPoint.sym.toNat ≤ bound
  usedSym : t.usedSym = s.usedSym +
    UInt8.ofNat (Nat.dist s.startingPoint.sym.toNat t.startingPoint.sym.toNat)
  rbg : t.startingPoint.rbg = 0
  filled : s.ueMap.UlGrantsFilled → t.ueMap.UlGrantsFilled

theorem beam_goesOn {keys : List HarqKey} {ues : List UInt16} (hRbg : s.startingPoint.rbg = 0)
    (hRoom : s.startingPoint.sym.toNat + n.toNat < 2 ^ 8)
    (h : beamLoop bw n feedback (s, []) keys = some (t, ues)) :
    GoesOn n.toNat s (t.endBeam n ues) := by
  have hStart : SideBySide bw n s s [] :=
    ⟨List.Perm.refl _, rfl, rfl, rfl, by rw [hRbg]; exact Nat.zero_le _, by simp, by simp,
      List.Pairwise.nil, by simp, by simp, fun _ => rfl, id⟩
  obtain ⟨l, hBeam, hCount⟩ := hStart.run rfl h
  rw [endBeam]
  split
  · next hNone =>
    rw [hNone] at hCount
    have hNil := List.length_eq_zero_iff.mp hCount.symm
    refine ⟨⟨l, hBeam.allocs, ?_, ?_, hBeam.format⟩, ?_, ?_, (hBeam.idle hNil).trans hRbg,
      hBeam.filled⟩
    · rw [hBeam.numSym, hBeam.sym, Nat.dist_self]
      exact (UInt32.add_zero _).symm
    · rw [hBeam.sym, hNil]
      exact Swept.nil
    · rw [hBeam.sym, Nat.dist_self]
      exact Nat.zero_le _
    · rw [hBeam.usedSym, hBeam.sym, Nat.dist_self]
      exact (UInt8.add_zero _).symm
  · next hSome =>
    have hNe : l ≠ [] := fun hNil => hSome (List.length_eq_zero_iff.mp (by rw [hCount, hNil]; rfl))
    obtain ⟨a, ha⟩ := List.exists_mem_of_ne_nil l hNe
    have hPos : 0 < n.toNat :=
      Nat.pos_of_ne_zero fun hZero => hBeam.height a ha (UInt8.toNat_inj.mp hZero)
    have hSym : (t.startingPoint.sym + n).toNat = s.startingPoint.sym.toNat + n.toNat := by
      rw [hBeam.sym, UInt8.toNat_add]
      exact Nat.mod_eq_of_lt hRoom
    have hSpans : Spans DciFormat.dl.up s.startingPoint.sym.toNat (t.startingPoint.sym + n).toNat
        ⟨s.startingPoint.sym.toNat, n.toNat⟩ := ⟨rfl, hSym.symm⟩
    have hDist := hSpans.dist_eq
    refine ⟨⟨l, hBeam.allocs, ?_, ?_, hBeam.format⟩, hDist.le, ?_, rfl, hBeam.filled⟩
    · change t.slotAlloc.numSymAlloc + n.toUInt32 = _ + UInt32.ofNat (Nat.dist _ _)
      rw [hBeam.numSym, ← UInt32.ofNat_uInt8ToNat]
      exact congrArg (s.slotAlloc.numSymAlloc + UInt32.ofNat ·) hDist.symm
    · refine Swept.shelf hSpans hPos (fun hNil => hNe (List.map_eq_nil_iff.mp hNil)) ?_
        (List.pairwise_map.mpr (hBeam.apart.imp Set.disjoint_left.mpr))
      intro b hb
      obtain ⟨c, hc, rfl⟩ := List.mem_map.mp hb
      exact hBeam.rows c hc
    · change t.usedSym + n = _ + UInt8.ofNat (Nat.dist _ _)
      rw [hBeam.usedSym]
      refine congrArg (s.usedSym + ·) ?_
      rw [show Nat.dist _ _ = n.toNat from hDist, UInt8.ofNat_toNat]

theorem loop_goesOn {beams : ActiveHarqMap} (hRbg : s.startingPoint.rbg = 0)
    (hRoom : s.startingPoint.sym.toNat + beams.length * n.toNat < 2 ^ 8)
    (h : loop bw n feedback s beams = some t) : GoesOn (beams.length * n.toNat) s t := by
  induction beams generalizing s with
  | nil =>
    cases h
    refine ⟨⟨[], Adds.refl .dl _ _⟩, ?_, ?_, hRbg, id⟩
    · rw [Nat.dist_self]
      exact Nat.zero_le _
    · rw [Nat.dist_self]
      exact (UInt8.add_zero _).symm
  | cons beam beams ih =>
    obtain ⟨⟨u, ues⟩, hBeam, h⟩ := Option.bind_eq_some_iff.mp h
    rw [List.length_cons, Nat.succ_mul] at hRoom ⊢
    have hFirst := beam_goesOn hRbg (by omega) hBeam
    obtain ⟨l, hAdds⟩ := hFirst.adds
    have hWithin := hFirst.within
    have hUp : s.startingPoint.sym.toNat ≤ (u.endBeam n ues).startingPoint.sym.toNat :=
      Laid.le hAdds.swept
    have hSym :
        (u.endBeam n ues).startingPoint.sym.toNat ≤ s.startingPoint.sym.toNat + n.toNat := by
      rw [Nat.dist] at hWithin
      omega
    have hRest := ih hFirst.rbg (by omega) h
    obtain ⟨m, hAdds'⟩ := hRest.adds
    have hDist := hAdds.swept.dist_append hAdds'.swept
    have hWithinRest := hRest.within
    refine ⟨⟨m ++ l, hAdds.trans hAdds'⟩, by omega, ?_, hRest.rbg, hRest.filled ∘ hFirst.filled⟩
    rw [hRest.usedSym, hFirst.usedSym, ← hDist, UInt8.ofNat_add, UInt8.add_assoc]

end DlHarqState

namespace CellConfig

variable {cfg : CellConfig μ} {e : DlTrigger} {s t : SlotScheduling μ}

theorem retransmitDl_goesOn (hRoom : s.spoint.sym.toNat + s.symAvail.toNat < 2 ^ 8)
    (h : cfg.retransmitDl e s = some t) : GoesOn .dl s t := by
  rw [retransmitDl] at h
  split at h
  · cases h
    exact GoesOn.refl .dl s
  · obtain ⟨u, hHarq, h⟩ := Option.bind_eq_some_iff.mp h
    split at h
    · cases h
    · next hFit =>
      cases h
      rw [scheduleDlHarq] at hHarq
      split at hHarq
      · cases hHarq
      · next hRbg =>
        rw [not_ne_iff] at hRbg
        obtain ⟨u', hLoop, hHarq⟩ := Option.bind_eq_some_iff.mp hHarq
        obtain ⟨-, hResult⟩ := Option.ite_none_right_eq_some.mp hHarq
        cases hResult
        have hLe := length_mul_symPerBeam_le s.symAvail e.activeDlHarq
        have hWalk := DlHarqState.loop_goesOn hRbg
          (Nat.lt_of_le_of_lt (Nat.add_le_add_left hLe _) hRoom) hLoop
        have hWithin := hWalk.within.trans hLe
        have hUsed : u.usedSym.toNat = Nat.dist s.spoint.sym.toNat u.startingPoint.sym.toNat := by
          have hAvail := s.symAvail.toNat_lt
          rw [hWalk.usedSym, UInt8.zero_add, UInt8.toNat_ofNat']
          exact Nat.mod_eq_of_lt (hWithin.trans_lt hAvail)
        refine ⟨hWalk.adds, ?_, fun hCleared => hCleared.congr rfl, hWalk.filled⟩
        change (s.symAvail - u.usedSym).toNat + Nat.dist s.spoint.sym.toNat _ = _
        rw [UInt8.toNat_sub_of_le _ _ (UInt8.not_lt.mp hFit), hUsed]
        exact Nat.sub_add_cancel hWithin

theorem scheduleDlData_goesOn (hMask : cfg.scheduler.MaskFits) (hActive : e.activeDl.Distinct)
    (hCleared : s.mac.ues.Cleared) (h : cfg.scheduleDlData e s = some t) : GoesOn .dl s t := by
  rw [scheduleDlData] at h
  dsimp only at h
  split at h
  · cases h
  · split at h
    · cases h
      exact GoesOn.refl .dl s
    · obtain ⟨u, hData, h⟩ := Option.bind_eq_some_iff.mp h
      split at h
      · cases h
      · next hFit =>
        cases h
        have hDistinct := hActive.withoutScheduled s.allocInfo.varTtiAllocInfo
        have hWord : ∀ n : UInt8, n.toUInt32.toNat < 2 ^ 8 := fun n => by
          rw [UInt8.toNat_toUInt32]
          exact n.toNat_lt
        obtain ⟨l, hLaid⟩ := MacScheduler.doScheduleDlData_laid hMask (hWord _) (hWord _)
          hDistinct.beams hDistinct.users hCleared hData
        have hWithin := hLaid.within
        rw [UInt8.toNat_toUInt32] at hWithin
        refine ⟨⟨l, hLaid.adds⟩, ?_, hLaid.cleared, hLaid.filled⟩
        rw [UInt8.toNat_sub_of_le _ _ (UInt8.not_lt.mp hFit), hLaid.usedSym]
        rw [hLaid.usedSym] at hWithin
        exact Nat.sub_add_cancel hWithin

/-- The control symbols at the start of the slot. -/
theorem ctrlSyms_laid (cfg : CellConfig μ) {n : ℕ} (hFew : n < 2 ^ 8) :
    Laid 0 n (((List.range n).map fun i =>
      VarTtiAllocInfo.ofDci (cfg.ctrlDci .dl (0 + UInt8.ofNat i))).map VarTtiAllocInfo.tile) := by
  induction n with
  | zero => exact Laid.nil
  | succ n ih =>
    rw [List.range_succ, List.map_append, List.map_append]
    have hStart : (0 + UInt8.ofNat n).toNat = n := by
      rw [UInt8.zero_add, UInt8.toNat_ofNat']
      exact Nat.mod_eq_of_lt (by omega)
    have hLast : Laid n (n + 1)
        [(VarTtiAllocInfo.ofDci (cfg.ctrlDci .dl (0 + UInt8.ofNat n))).tile] := by
      have hSingle := Laid.single
        (a := (VarTtiAllocInfo.ofDci (cfg.ctrlDci .dl (0 + UInt8.ofNat n))).tile) Nat.one_pos
      change Laid (0 + UInt8.ofNat n).toNat ((0 + UInt8.ofNat n).toNat + 1) _ at hSingle
      rwa [hStart] at hSingle
    exact (ih (by omega)).append hLast

/-- The UL control symbols that the DL part starts with. -/
def special (cfg : CellConfig μ) (type : LteNrTddSlotType) : SlotAllocInfo where
  numSymAlloc := (cfg.specialCtrl type).toUInt32
  varTtiAllocInfo := cfg.ctrlSyms (cfg.symbolsPerSlot - 1) (cfg.specialCtrl type) .ul

theorem scheduleDl_part {mac : MacState μ} {totUlSym : UInt8} (hMask : cfg.scheduler.MaskFits)
    (hActive : e.activeDl.Distinct) (hCleared : mac.ues.Cleared)
    (hRoom : cfg.dlCtrlSymbols.toNat + totUlSym.toNat + (cfg.specialCtrl e.type).toNat ≤
      cfg.symbolsPerSlot.toNat)
    (h : cfg.scheduleDl e totUlSym mac = some t) :
    (∃ l, Adds .dl (cfg.special e.type) t.allocInfo 0 t.spoint.sym.toNat l) ∧
      t.spoint.sym.toNat + totUlSym.toNat + (cfg.specialCtrl e.type).toNat ≤
        cfg.symbolsPerSlot.toNat ∧
      t.mac.ues.Cleared ∧ (mac.ues.harq.UlGrantsFilled → t.mac.ues.harq.UlGrantsFilled) := by
  rw [scheduleDl] at h
  obtain ⟨ctrl, hCtrl, h⟩ := Option.bind_eq_some_iff.mp h
  cases hCtrl
  obtain ⟨ctrl, hCtrl, h⟩ := Option.bind_eq_some_iff.mp h
  cases hCtrl
  obtain ⟨s, hHarq, hData⟩ := Option.bind_eq_some_iff.mp h
  have hSlot := cfg.symbolsPerSlot.toNat_lt
  have hUl : (totUlSym + cfg.specialCtrl e.type).toNat =
      totUlSym.toNat + (cfg.specialCtrl e.type).toNat := by
    rw [UInt8.toNat_add]
    omega
  have hLessCtrl : (cfg.symbolsPerSlot - cfg.dlCtrlSymbols).toNat =
      cfg.symbolsPerSlot.toNat - cfg.dlCtrlSymbols.toNat :=
    UInt8.toNat_sub_of_le _ _ (UInt8.le_iff_toNat_le.mpr (by omega))
  have hAvail : (cfg.symbolsPerSlot - cfg.dlCtrlSymbols -
      (totUlSym + cfg.specialCtrl e.type)).toNat = cfg.symbolsPerSlot.toNat -
        cfg.dlCtrlSymbols.toNat - (totUlSym.toNat + (cfg.specialCtrl e.type).toNat) := by
    rw [UInt8.toNat_sub_of_le _ _ (UInt8.le_iff_toNat_le.mpr (by omega)), hUl, hLessCtrl]
  have hHarqOn := retransmitDl_goesOn (by
    change cfg.dlCtrlSymbols.toNat + (cfg.symbolsPerSlot - cfg.dlCtrlSymbols -
      (totUlSym + cfg.specialCtrl e.type)).toNat < 2 ^ 8
    omega) hHarq
  have hAll := hHarqOn.trans
    (scheduleDlData_goesOn hMask hActive (hHarqOn.cleared hCleared) hData)
  have hBehind := hAll.behind
  change _ = cfg.dlCtrlSymbols.toNat + (cfg.symbolsPerSlot - cfg.dlCtrlSymbols -
    (totUlSym + cfg.specialCtrl e.type)).toNat at hBehind
  obtain ⟨l, hAdds⟩ := hAll.adds
  -- the control symbols, of DL and of UL
  have hStart : Adds .dl (cfg.special e.type)
      ⟨cfg.dlCtrlSymbols.toUInt32 + (cfg.specialCtrl e.type).toUInt32,
        (cfg.ctrlSyms 0 cfg.dlCtrlSymbols .dl).reverse ++ [] ++
          cfg.ctrlSyms (cfg.symbolsPerSlot - 1) (cfg.specialCtrl e.type) .ul⟩
      0 cfg.dlCtrlSymbols.toNat (cfg.ctrlSyms 0 cfg.dlCtrlSymbols .dl) := by
    refine ⟨?_, ?_, cfg.ctrlSyms_laid cfg.dlCtrlSymbols.toNat_lt, ?_⟩
    · rw [List.append_nil]
      exact (List.reverse_perm _).append_right _
    · have hDist : Nat.dist 0 cfg.dlCtrlSymbols.toNat = cfg.dlCtrlSymbols.toNat :=
        Nat.dist_zero_left _
      rw [hDist, UInt32.ofNat_uInt8ToNat]
      exact UInt32.add_comm _ _
    · intro a ha
      obtain ⟨i, -, rfl⟩ := List.mem_map.mp ha
      rfl
  exact ⟨⟨_, hStart.trans hAdds⟩, by omega, hAll.cleared hCleared, hAll.filled⟩

end CellConfig

/-! ## The merged slot -/

theorem symUsed_eq (lastSymStart : Option UInt8) (l : List VarTtiAllocInfo) :
    symUsed lastSymStart l = UInt32.ofNat
      (changes (lastSymStart.map UInt8.toNat) (l.map fun a => a.dci.symbols)) := by
  induction l generalizing lastSymStart with
  | nil => rfl
  | cons a l ih =>
    have hStart : lastSymStart = some a.dci.symStart ↔
        lastSymStart.map UInt8.toNat = some a.dci.symbols.start := by
      cases lastSymStart with
      | none => exact iff_of_false (Option.some_ne_none _).symm (Option.some_ne_none _).symm
      | some sym =>
        rw [Option.map_some, Option.some_inj, Option.some_inj]
        exact UInt8.toNat_inj.symm
    rw [symUsed, ih, List.map_cons, changes, UInt32.ofNat_add]
    refine congrArg (· + _) ((if_congr hStart rfl rfl).trans ?_)
    split
    · rfl
    · exact (UInt32.ofNat_uInt8ToNat _).symm

/-- Allocations that fit together, counted and in the order of their starts, pass the checks. -/
theorem SlotAllocInfo.StatisticsHold.of_fit {slot : SlotAllocInfo}
    (hAscending : slot.varTtiAllocInfo.Pairwise fun a b => a.dci.symStart ≤ b.dci.symStart)
    (hFit : Fit (slot.varTtiAllocInfo.map VarTtiAllocInfo.tile))
    (hNumSym : slot.numSymAlloc =
      UInt32.ofNat (height (slot.varTtiAllocInfo.map VarTtiAllocInfo.tile))) :
    slot.StatisticsHold where
  ascending := hAscending
  symUsed := by
    have hRows : (slot.varTtiAllocInfo.map VarTtiAllocInfo.tile).map Tile.rows =
        slot.varTtiAllocInfo.map fun a => a.dci.symbols := by
      rw [List.map_map]
      rfl
    rw [symUsed_eq, hNumSym, height, hRows]
    refine congrArg UInt32.ofNat (changes_eq ?_ ?_)
    · intro b hb c hc hStart
      obtain ⟨a, ha, rfl⟩ := List.mem_map.mp hb
      obtain ⟨a', ha', rfl⟩ := List.mem_map.mp hc
      exact hFit.rows_eq (List.mem_map_of_mem ha) (List.mem_map_of_mem ha') hStart
    · exact List.pairwise_map.mpr (hAscending.imp fun h => UInt8.le_iff_toNat_le.mp h)

/-- The allocations of the slot are apart from each other, and the PHY counts each of its symbols
once. -/
structure SlotAllocInfo.Laid (slot : SlotAllocInfo) (symbolsPerSlot : ℕ) : Prop where
  fit : Fit (slot.varTtiAllocInfo.map VarTtiAllocInfo.tile)
  inside : ∀ a ∈ slot.varTtiAllocInfo, a.dci.symbols.Inside 0 symbolsPerSlot
  statistics : slot.StatisticsHold

/-- The two parts of a slot that do not meet. -/
theorem SlotAllocInfo.Laid.merge (order : StartSort) {ul dl : SlotAllocInfo} {i j k : ℕ}
    {l m : List VarTtiAllocInfo} (hUl : Adds .ul {} ul i j l) (hDl : Adds .dl {} dl 0 k m)
    (hLe : k ≤ j) : (ul.merge order dl).Laid i := by
  have hPerm : (ul.merge order dl).varTtiAllocInfo.Perm (m ++ l) := by
    have hUlPerm : ul.varTtiAllocInfo.Perm l := by simpa using hUl.allocs
    have hDlPerm : dl.varTtiAllocInfo.Perm m := by simpa using hDl.allocs
    exact (order.perm _).trans (((List.reverse_perm _).trans hDlPerm).append hUlPerm)
  have hTiles := hPerm.map VarTtiAllocInfo.tile
  rw [List.map_append] at hTiles
  have hUlLaid : Lib.Tiles.Laid j i (l.map VarTtiAllocInfo.tile) := hUl.swept
  have hDlLaid : Lib.Tiles.Laid 0 k (m.map VarTtiAllocInfo.tile) := hDl.swept
  have hApart : ∀ a ∈ m.map VarTtiAllocInfo.tile, ∀ b ∈ l.map VarTtiAllocInfo.tile,
      a.rows.Apart b.rows := fun a ha b hb =>
    Or.inl ((hDlLaid.inside a ha).2.trans (hLe.trans (hUlLaid.inside b hb).1))
  have hFit := hDlLaid.toFit.append hUlLaid.toFit hApart
  have hHeight : height ((ul.merge order dl).varTtiAllocInfo.map VarTtiAllocInfo.tile) =
      Nat.dist i j + Nat.dist 0 k := by
    rw [height_perm hTiles, height_append hFit hApart, ← hDl.swept.dist_eq, ← hUl.swept.dist_eq,
      Nat.add_comm]
  have hNumSym : (ul.merge order dl).numSymAlloc =
      UInt32.ofNat (height ((ul.merge order dl).varTtiAllocInfo.map VarTtiAllocInfo.tile)) := by
    change ul.numSymAlloc + dl.numSymAlloc = _
    rw [hHeight, hUl.numSym, hDl.numSym, UInt32.ofNat_add, UInt32.zero_add, UInt32.zero_add]
  refine ⟨hFit.perm hTiles, fun a ha => ?_, .of_fit (order.sorted _) (hFit.perm hTiles) hNumSym⟩
  rcases List.mem_append.mp (hPerm.subset ha) with hMem | hMem
  · have hInside := hDlLaid.inside _ (List.mem_map_of_mem hMem)
    exact ⟨hInside.1, hInside.2.trans (hLe.trans hUlLaid.le)⟩
  · exact ⟨Nat.zero_le _, (hUlLaid.inside _ (List.mem_map_of_mem hMem)).2⟩

end Bullet.Mac
