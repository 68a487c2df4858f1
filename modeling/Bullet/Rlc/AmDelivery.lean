import Bullet.Rlc.AmStatusContent
import Bullet.Rlc.UmTransmitter

/-! # What the receiving side delivers

The PDUs are handed to the reassembly one after the other, without a gap. So all SDUs up to the end of
the last one have been delivered, each once and in their order. No assertion fails.
-/

namespace Bullet.Rlc

open Lib Segmentation SequenceNumber10

/-- What a data PDU carries: whether it begins and ends with an SDU, and the pieces of SDUs. -/
structure Content where
  starts : Bool
  ends : Bool
  pieces : List (List UInt8)

/-- What is between two cuts of a sequence of SDUs. -/
def Content.between (l : List (List UInt8)) (c d : Cut) : Content :=
  ⟨decide (c.element = 0), decide (d.element = 0), Segmentation.pieces l c d⟩

theorem framing_and (starts ends : Bool) : framing starts ends &&& 0x03 = framing starts ends := by
  cases starts <;> cases ends <;> rfl

/-- Numbers seen from the number that `base` stands for. -/
theorem offset_base {base n : ℕ} (hFrom : base ≤ n) (hTo : n < base + 1024) :
    base + offset (num base) (num n) = n := by
  rw [offset_eq, num_val, num_val]
  omega

theorem num_offset {base : ℕ} {a : Fin 1024} (hBase : num base = a) (v : Fin 1024) :
    num (base + offset a v) = v := by
  have hV := v.isLt
  rw [← hBase, offset_eq]
  apply Fin.ext
  rw [num_val, num_val]
  omega

theorem num_add_modulus (n : ℕ) : num (n + 1024) = num n := by
  apply Fin.ext
  rw [num_val, num_val]
  omega

/-- The packet is read as the data PDU of number `n`, whatever its polling bit. -/
def AmPdu.Brings (p : AmPdu) (n : ℕ) (content : Content) : Prop :=
  content.pieces ≠ [] ∧ ∃ d, p.Carries d ∧ d.resegmentationFlag = PDU ∧
    d.sequenceNumber.value = num n ∧ d.framingInfo = framing content.starts content.ends ∧
      LteRlcAm.splitSdus (entryBits d.lengthIndicators) d.lengthIndicators p.data =
        some content.pieces

namespace AmPdu.Brings

variable {p : AmPdu} {n : ℕ} {content : Content}

theorem read (h : p.Brings n content) : ∃ g, p.peekHeader = some g ∧
    p.removeHeader = some (g, p.data) ∧ g.dataControlBit = DATA_PDU ∧
      g.resegmentationFlag = PDU ∧ g.sequenceNumber.value = num n ∧
        g.framingInfo = framing content.starts content.ends ∧
          LteRlcAm.splitSdus g.extensionBits g.lengthIndicators p.data = some content.pieces := by
  obtain ⟨-, d, hCarries, hFlag, hNumber, hFraming, hSplit⟩ := h
  obtain ⟨g, hPeek, hRemove, hSame, -⟩ := hCarries.removeHeader
  refine ⟨g, hPeek, hRemove, hSame.dataControlBit.trans ?_, hSame.resegmentationFlag.trans ?_,
    hSame.sequenceNumber.trans ?_, hSame.framingInfo.trans ?_, ?_⟩
  · rw [LteRlcAmHeader.ofData_eq]
  · rw [LteRlcAmHeader.ofData_eq, hFlag]
    rfl
  · rw [LteRlcAmHeader.ofData_eq, hNumber]
  · rw [LteRlcAmHeader.ofData_eq, hFraming]
    exact framing_and _ _
  · rw [hSame.extensionBits, hSame.lengthIndicators, LteRlcAmHeader.ofData_eq]
    exact hSplit

/-- The header as it is kept tells the same. -/
theorem header (h : p.Brings n content) : p.header.dataControlBit = DATA_PDU ∧
    p.header.sequenceNumber.value = num n := by
  obtain ⟨-, d, hCarries, -, hNumber, -⟩ := h
  refine ⟨hCarries.header.dataControlBit.trans ?_, hCarries.header.sequenceNumber.trans ?_⟩
  · rw [LteRlcAmHeader.ofData_eq]
  · rw [LteRlcAmHeader.ofData_eq, hNumber]

/-- A PDU that is sent again with another polling bit. -/
theorem setPollingBit {g : LteRlcAmHeader} (h : p.Brings n content)
    (hRead : p.removeHeader = some (g, p.data)) (b : ℕ) :
    (⟨g.setPollingBit b, p.data⟩ : AmPdu).Brings n content := by
  obtain ⟨hNe, d, hCarries, hFlag, hNumber, hFraming, hSplit⟩ := h
  obtain ⟨g', -, hRemove, hSame, -⟩ := hCarries.removeHeader
  rw [hRead] at hRemove
  cases hRemove
  refine ⟨hNe, { d with pollingBit := b }, ⟨hCarries.lis, hCarries.short, hCarries.offset, ?_⟩, hFlag,
    hNumber, hFraming, hSplit⟩
  rw [LteRlcAmHeader.ofData_eq] at hSame ⊢
  exact ⟨hSame.headerLength, hSame.dataControlBit, hSame.resegmentationFlag, rfl, hSame.framingInfo,
    hSame.sequenceNumber, hSame.lastSegmentFlag, hSame.segmentOffset, hSame.extensionBits,
    hSame.lengthIndicators⟩

end AmPdu.Brings

namespace LteRlcAm

open LteRlcAmHeader

variable {s t : LteRlcAm} {kept : Option (List UInt8)} {ps qs : List (List UInt8)}
  {starts ends : Bool} {n base sent fuel : ℕ} {l delivered : List (List UInt8)} {c d : Cut}

/-! ## Reassembly -/

/-- What the automaton keeps between two PDUs. -/
structure Keeps (s : LteRlcAm) (kept : Option (List UInt8)) : Prop where
  state : s.reassemblingState = if kept.isSome then .WAITING_SI_SF else .WAITING_S0_FULL
  keepS0 : ∀ k, kept = some k → s.keepS0 = some k
  sdusBuffer : s.sdusBuffer = []

/-- The pieces are joined to what is kept, in a transition that succeeds. -/
def Feeds (s : LteRlcAm) (kept : Option (List UInt8)) (starts ends : Bool) (ps : List (List UInt8))
    (result : Option (LteRlcAm × List Output)) : Prop :=
  ∃ t, result = some (t, deliver (feed kept starts ends ps).2) ∧
    t.Keeps (feed kept starts ends ps).1 ∧ t.expectedSeqNumber = s.expectedSeqNumber

theorem feeds_deliverAll (hJoin : join kept starts ps = qs) :
    Feeds s kept starts true ps (s.deliverAll qs) := by
  refine ⟨{ s with reassemblingState := .WAITING_S0_FULL, sdusBuffer := [] }, ?_,
    ⟨rfl, nofun, rfl⟩, rfl⟩
  rw [← hJoin]
  rfl

theorem feeds_deliverKeepLast (hJoin : join kept starts ps = qs) (hNe : qs ≠ []) :
    Feeds s kept starts false ps (s.deliverKeepLast qs) := by
  have hFeed : feed kept starts false ps = (qs.getLast?, qs.dropLast) := by
    rw [← hJoin]
    rfl
  have hLast := List.getLast?_eq_some_getLast hNe
  unfold Feeds
  rw [hFeed, deliverKeepLast, hLast]
  refine ⟨_, rfl, ⟨rfl, fun k hKept => ?_, rfl⟩, rfl⟩
  exact hKept

/-- A kept piece is continued by a PDU that begins in the middle of an SDU. -/
theorem feeds_continue {k : List UInt8} (hState : s.reassemblingState = .WAITING_SI_SF)
    (hKept : s.keepS0 = some k) (hBuffer : s.sdusBuffer = ps) (hNe : ps ≠ []) :
    Feeds s (some k) false ends ps (s.reassemble false (framing false ends)) := by
  unfold reassemble
  dsimp only
  rw [hState, hKept, hBuffer]
  obtain ⟨p, qs, rfl⟩ := List.exists_cons_of_ne_nil hNe
  cases ends
  · dsimp only
    rw [if_neg (by decide), if_pos (by decide)]
    by_cases hOne : (p :: qs).length = 1
    · have hNil : qs = [] := List.length_eq_zero_iff.mp (Nat.succ_injective hOne)
      subst hNil
      exact ⟨_, rfl, ⟨rfl, fun _ hEq => hEq, rfl⟩, rfl⟩
    · simp only [Option.bind_eq_bind, Option.bind_some, List.head?_cons, List.tail_cons]
      rw [if_neg hOne]
      exact feeds_deliverKeepLast rfl (List.cons_ne_nil _ _)
  · dsimp only
    rw [if_pos (by decide)]
    exact feeds_deliverAll rfl

/-- Without a kept piece the PDU begins with an SDU. -/
theorem feeds_begin (hState : s.reassemblingState = .WAITING_S0_FULL) (hBuffer : s.sdusBuffer = ps)
    (hNe : ps ≠ []) : Feeds s none true ends ps (s.reassemble false (framing true ends)) := by
  unfold reassemble
  dsimp only
  rw [hState, hBuffer]
  cases ends
  · dsimp only
    rw [if_neg (by decide), if_pos (by decide)]
    exact feeds_deliverKeepLast rfl hNe
  · dsimp only
    rw [if_pos (by decide)]
    exact feeds_deliverAll rfl

/-- All SDUs up to the cut, the end of the PDU before number `n`, have been delivered. -/
structure Assembled (s : LteRlcAm) (l : List (List UInt8)) (c : Cut) (n : ℕ)
    (delivered : List (List UInt8)) : Prop where
  exactly : ∃ kept, s.Keeps kept ∧ Exactly l c kept delivered
  expected : s.expectedSeqNumber.value = num n

theorem feeds_exactly (ends : Bool) (hKeeps : s.Keeps kept)
    (hExactly : Exactly l c kept delivered) (hNe : ps ≠ []) : Feeds s kept (decide (c.element = 0)) ends ps
      ({ s with sdusBuffer := s.sdusBuffer ++ ps }.reassemble false
        (framing (decide (c.element = 0)) ends)) := by
  have hBuffer : s.sdusBuffer ++ ps = ps := by rw [hKeeps.sdusBuffer, List.nil_append]
  rw [hBuffer]
  cases hKept : kept with
  | none =>
    have hStarts : decide (c.element = 0) = true := by
      apply decide_eq_true
      by_contra hInside
      have hSome := hExactly.kept
      rw [hKept, if_neg hInside] at hSome
      cases hSome
    have hState := hKeeps.state
    rw [hKept] at hState
    rw [hStarts]
    exact feeds_begin (s := { s with sdusBuffer := ps }) hState rfl hNe
  | some k =>
    have hState := hKeeps.state
    rw [hKept] at hState
    rw [hExactly.kept_isSome (hKept ▸ rfl)]
    exact feeds_continue (s := { s with sdusBuffer := ps }) hState (hKeeps.keepS0 k hKept) rfl hNe

/-- The next PDU. -/
theorem Assembled.next {p : AmPdu} (h : s.Assembled l c n delivered)
    (hBrings : p.Brings n (.between l c d)) (hFollows : Follows l c d) :
    ∃ t sdus, s.reassembleAndDeliver p = some (t, deliver sdus) ∧
      t.Assembled l d (n + 1) (delivered ++ sdus) := by
  obtain ⟨kept, hKeeps, hExactly⟩ := h.exactly
  obtain ⟨g, -, hRemove, -, -, hNumber, hFraming, hSplit⟩ := hBrings.read
  have hLost : decide (g.sequenceNumber.value ≠ s.expectedSeqNumber.value) = false := by
    rw [hNumber, h.expected]
    exact decide_eq_false (not_not_intro rfl)
  obtain ⟨t, hRun, hKept, hExpected⟩ := feeds_exactly
    (s := { s with expectedSeqNumber := s.expectedSeqNumber.add 1 }) (decide (d.element = 0))
    ⟨hKeeps.state, hKeeps.keepS0, hKeeps.sdusBuffer⟩ hExactly hBrings.1
  refine ⟨t, _, ?_, ⟨_, hKept, hExactly.feed hFollows⟩, ?_⟩
  · rw [reassembleAndDeliver, hRemove, Option.bind_eq_bind, Option.bind_some]
    dsimp only
    rw [hSplit, hLost, hFraming]
    exact hRun
  · have hNext : (s.expectedSeqNumber.add 1).value = num (n + 1) := by
      rw [add, h.expected, ← num_add_one]
      rfl
    rw [hExpected]
    exact hNext

/-! ## Delivery -/

/-- The first `sent` PDUs carry the sequence `l` from cut to cut. -/
structure Chain (l : List (List UInt8)) (cut : ℕ → Cut) (content : ℕ → Content) (sent : ℕ) : Prop where
  within : ∀ n ≤ sent, Within l (cut n)
  follows : ∀ n < sent, Follows l (cut n) (cut (n + 1))
  content : ∀ n < sent, content n = .between l (cut n) (cut (n + 1))

/-- The reception buffer holds PDUs that were sent, each under its own number. -/
def Stores (s : LteRlcAm) (content : ℕ → Content) (base sent : ℕ) : Prop :=
  ∀ v b, s.rxonBuffer v = some b → base + offset s.vrR.value v < sent ∧
    ∃ p, b.byteSegments = [p] ∧
      p.Brings (base + offset s.vrR.value v) (content (base + offset s.vrR.value v))

/-- All before VR(R) has been delivered, and what is kept beyond it was sent. -/
structure Holding (s : LteRlcAm) (l : List (List UInt8)) (cut : ℕ → Cut) (content : ℕ → Content)
    (base sent : ℕ) (delivered : List (List UInt8)) : Prop where
  assembled : s.Assembled l (cut base) base delivered
  stores : s.Stores content base sent
  top : base + offset s.vrR.value s.vrH.value ≤ sent

/-- One more PDU is sent. -/
theorem Chain.next {cut : ℕ → Cut} {content : ℕ → Content} (h : Chain l cut content sent)
    (hFollows : Follows l (cut sent) d) : Chain l (Function.update cut (sent + 1) d)
      (Function.update content sent (.between l (cut sent) d)) (sent + 1) where
  within n hLe := by
    rcases Nat.lt_or_eq_of_le hLe with hLt | rfl
    · rw [Function.update_of_ne hLt.ne]
      exact h.within n (Nat.le_of_lt_succ hLt)
    · rw [Function.update_self]
      exact hFollows.within
  follows n hLt := by
    rw [Function.update_of_ne hLt.ne]
    rcases Nat.lt_or_eq_of_le (Nat.le_of_lt_succ hLt) with hOld | rfl
    · rw [Function.update_of_ne (Nat.succ_lt_succ hOld).ne]
      exact h.follows n hOld
    · rw [Function.update_self]
      exact hFollows
  content n hLt := by
    rw [Function.update_of_ne hLt.ne _ cut]
    rcases Nat.lt_or_eq_of_le (Nat.le_of_lt_succ hLt) with hOld | rfl
    · rw [Function.update_of_ne hOld.ne, Function.update_of_ne (Nat.succ_lt_succ hOld).ne]
      exact h.content n hOld
    · rw [Function.update_self, Function.update_self]

theorem Holding.next {cut : ℕ → Cut} {content : ℕ → Content}
    (h : s.Holding l cut content base sent delivered) (d : Cut) (new : Content) :
    s.Holding l (Function.update cut (sent + 1) d) (Function.update content sent new) base (sent + 1)
      delivered := by
  have hBase : base ≤ sent := (Nat.le_add_right _ _).trans h.top
  refine ⟨?_, fun v b hEntry => ?_, h.top.trans (Nat.le_succ sent)⟩
  · rw [Function.update_of_ne (Nat.lt_succ_of_le hBase).ne]
    exact h.assembled
  · obtain ⟨hSent, p, hOne, hBrings⟩ := h.stores v b hEntry
    refine ⟨hSent.trans (Nat.lt_succ_self sent), p, hOne, ?_⟩
    rw [Function.update_of_ne hSent.ne]
    exact hBrings

/-- The variables that `Holding` is about. -/
def assembly (s : LteRlcAm) : LteRlcAm where
  maxTxBufferSize := 0
  txOpportunityForRetxAlwaysBigEnough := false
  vrR := s.vrR
  vrH := s.vrH
  rxonBuffer := s.rxonBuffer
  reassemblingState := s.reassemblingState
  keepS0 := s.keepS0
  sdusBuffer := s.sdusBuffer
  expectedSeqNumber := s.expectedSeqNumber

theorem assembly_vrMr (s : LteRlcAm) (vrMr : SequenceNumber10) :
    { s with vrMr := vrMr }.assembly = s.assembly := rfl

variable {cut : ℕ → Cut} {content : ℕ → Content} {got : ℕ → Prop} {sn : SequenceNumber10}

theorem Assembled.of_assembly (h : s.Assembled l c n delivered) (hSame : t.assembly = s.assembly) :
    t.Assembled l c n delivered := by
  have hState : t.reassemblingState = s.reassemblingState := (congrArg reassemblingState hSame :)
  have hKeepS0 : t.keepS0 = s.keepS0 := (congrArg keepS0 hSame :)
  have hBuffer : t.sdusBuffer = s.sdusBuffer := (congrArg sdusBuffer hSame :)
  have hExpected : t.expectedSeqNumber = s.expectedSeqNumber :=
    (congrArg expectedSeqNumber hSame :)
  obtain ⟨kept, hKeeps, hExactly⟩ := h.exactly
  refine ⟨⟨kept, ⟨?_, ?_, ?_⟩, hExactly⟩, ?_⟩
  · rw [hState]
    exact hKeeps.state
  · rw [hKeepS0]
    exact hKeeps.keepS0
  · rw [hBuffer]
    exact hKeeps.sdusBuffer
  · rw [hExpected]
    exact h.expected

theorem Holding.of_assembly (h : s.Holding l cut content base sent delivered)
    (hSame : t.assembly = s.assembly) : t.Holding l cut content base sent delivered := by
  have hR : t.vrR = s.vrR := (congrArg vrR hSame :)
  have hH : t.vrH = s.vrH := (congrArg vrH hSame :)
  have hBuffer : t.rxonBuffer = s.rxonBuffer := (congrArg rxonBuffer hSame :)
  refine ⟨h.assembled.of_assembly hSame, ?_, ?_⟩
  · unfold Stores
    rw [hBuffer, hR]
    exact h.stores
  · rw [hR, hH]
    exact h.top

theorem stores_of_same (h : s.Stores content base sent) (hR : t.vrR = s.vrR)
    (hBuffer : t.rxonBuffer = s.rxonBuffer) : t.Stores content base sent := by
  unfold Stores
  rw [hBuffer, hR]
  exact h

theorem Assembled.advance (h : s.Assembled l c n delivered) :
    s.advanceVrR.Assembled l c n delivered := by
  obtain ⟨kept, hKeeps, hExactly⟩ := h.exactly
  exact ⟨⟨kept, ⟨hKeeps.state, hKeeps.keepS0, hKeeps.sdusBuffer⟩, hExactly⟩, h.expected⟩

/-- The window moves on by one. -/
theorem Stores.advance (h : s.Stores content base sent) :
    s.advanceVrR.Stores content (base + 1) sent := by
  intro v b hEntry
  change Function.update s.rxonBuffer s.vrR.value none v = some b at hEntry
  by_cases hEq : v = s.vrR.value
  · rw [hEq, Function.update_self] at hEntry
    cases hEntry
  · rw [Function.update_of_ne hEq] at hEntry
    have hNext := offset_next hEq
    have hSum : base + 1 + offset s.advanceVrR.vrR.value v = base + offset s.vrR.value v := by
      change base + 1 + offset (s.vrR.value + 1) v = _
      omega
    rw [hSum]
    exact h v b hEntry

/-- The PDUs are handed over up to the first missing one. -/
theorem deliverLoop_holding (hChain : Chain l cut content sent) (hDelivering : s.Delivering base got)
    (h : s.Holding l cut content base sent delivered)
    (hFuel : offset s.vrR.value s.vrH.value < fuel) :
    ∃ t sdus, s.deliverLoop fuel = some (t, deliver sdus) ∧
      t.Holding l cut content (base + offset s.vrR.value t.vrR.value) sent (delivered ++ sdus) := by
  induction fuel generalizing s base delivered with
  | zero => omega
  | succ fuel ih =>
    unfold deliverLoop
    split
    · next segments hEntry =>
      obtain ⟨hSent, p, hOne, hBrings⟩ := h.stores _ _ hEntry
      dsimp only at hOne
      subst hOne
      rw [offset_self, Nat.add_zero] at hSent hBrings
      rw [hChain.content base hSent] at hBrings
      obtain ⟨u, sdus, hRun, hNext⟩ := h.assembled.next hBrings (hChain.follows base hSent)
      have hSame := reassembleAndDeliver_same hRun
      have hR : u.vrR = s.vrR := (congrArg vrR hSame :)
      have hH : u.vrH = s.vrH := (congrArg vrH hSame :)
      have hBuffer : u.rxonBuffer = s.rxonBuffer := (congrArg rxonBuffer hSame :)
      have hGot : got base := by
        have hHeld : s.Held s.vrR.value := (held_iff s _).mpr ⟨_, hEntry, rfl⟩
        have hAt := ((hDelivering.tracks.filled.held _).mp hHeld).2
        rwa [offset_self] at hAt
      have hNe : s.vrH.value ≠ s.vrR.value := by
        intro hEq
        have hBound := hDelivering.tracks.bound base hGot
        rw [hEq, offset_self] at hBound
        omega
      have hNextH := offset_next hNe
      have hAdvanced := (hDelivering.of_unassembled hSame).advance hGot
      have hTop := h.top
      obtain ⟨t, rest, hRest, hEnd⟩ := ih (s := u.advanceVrR) hAdvanced
        ⟨hNext.advance, (stores_of_same h.stores hR hBuffer).advance, by
          change base + 1 + offset (u.vrR.value + 1) u.vrH.value ≤ sent
          rw [hR, hH]
          omega⟩ (by
          change offset (u.vrR.value + 1) u.vrH.value < fuel
          rw [hR, hH]
          omega)
      obtain ⟨e, hE, hLe, -, -⟩ := deliverLoop_spec hAdvanced hRest
      change e = offset (u.vrR.value + 1) t.vrR.value at hE
      change e ≤ offset (u.vrR.value + 1) u.vrH.value at hLe
      change t.Holding l cut content (base + 1 + offset (u.vrR.value + 1) t.vrR.value) _ _ at hEnd
      rw [hR] at hE hLe hEnd
      rw [hH] at hLe
      have hMoved : t.vrR.value ≠ s.vrR.value := by
        intro hEq
        have hLt := offset_lt s.vrR.value s.vrH.value
        rw [hEq, offset_next_self] at hE
        omega
      have hSum : base + 1 + offset (s.vrR.value + 1) t.vrR.value =
          base + offset s.vrR.value t.vrR.value := by
        have hNextR := offset_next hMoved
        omega
      refine ⟨t, sdus ++ rest, ?_, ?_⟩
      · dsimp only
        rw [hRun, Option.bind_eq_bind, Option.bind_some]
        dsimp only
        rw [hRest, deliver, deliver, deliver, List.map_append]
        rfl
      · rw [← hSum, ← List.append_assoc]
        exact hEnd
    · refine ⟨s, [], rfl, ?_⟩
      rw [offset_self, List.append_nil]
      exact h

/-! ## Data PDUs -/

theorem firstIncomplete_total (h : s.Tracks base got)
    (hSn : offset s.vrR.value sn.value ≤ offset s.vrR.value s.vrH.value)
    (hFuel : offset s.vrR.value s.vrH.value - offset s.vrR.value sn.value < fuel) :
    ∃ sn', s.firstIncomplete fuel sn = some sn' := by
  have hTop := h.vrH
  induction fuel generalizing sn with
  | zero => omega
  | succ fuel ih =>
    rw [firstIncomplete]
    split
    · next hComplete =>
      have hBelow := h.bound _ ((h.filled.held sn.value).mp hComplete).2
      have hNext : offset s.vrR.value sn.increment.value = offset s.vrR.value sn.value + 1 :=
        offset_add_one (by omega)
      exact ih (by omega) (by omega)
    · exact ⟨sn, rfl⟩

theorem isInsideReceivingWindow_total (hReceiver : s.Receiver) (sn : SequenceNumber10) :
    ∃ t inside, s.isInsideReceivingWindow sn = some (t, inside) := by
  rw [isInsideReceivingWindow, setModulusBase_eq hReceiver.baseR]
  dsimp only
  rw [le_eq hReceiver.baseR rfl, lt_eq (s := sn.setModulusBase s.vrR) (b := s.vrR.value) rfl rfl]
  exact ⟨_, _, rfl⟩

theorem stopReordering_total (hReceiver : s.Receiver) :
    ∃ t, s.stopReordering = some t ∧ t.assembly = s.assembly := by
  unfold stopReordering
  split
  · split
    · exact ⟨_, rfl, rfl⟩
    · obtain ⟨t, inside, hInside⟩ := isInsideReceivingWindow_total hReceiver s.vrX
      have hSame : t.assembly = s.assembly := by
        rw [isInsideReceivingWindow_same hReceiver hInside]
        rfl
      rw [hInside, Option.bind_eq_bind, Option.bind_some]
      dsimp only
      split
      · exact ⟨_, rfl, hSame⟩
      · exact ⟨_, rfl, hSame⟩
  · exact ⟨s, rfl, rfl⟩

theorem startReordering_total (hReceiver : s.Receiver) :
    ∃ t, s.startReordering = some t ∧ t.assembly = s.assembly := by
  unfold startReordering
  split
  · exact ⟨s, rfl, rfl⟩
  · rw [gt_eq hReceiver.baseH hReceiver.baseR, Option.bind_eq_bind, Option.bind_some]
    split
    · exact ⟨_, rfl, rfl⟩
    · exact ⟨s, rfl, rfl⟩

theorem place_total (h : s.Stores content base sent) (sn : SequenceNumber10) (p : AmPdu) :
    ∃ t, s.place sn p = some t := by
  unfold place
  split
  · next b hEntry =>
    obtain ⟨-, q, hOne, -⟩ := h _ _ hEntry
    rw [hOne]
    exact ⟨s, rfl⟩
  · exact ⟨_, rfl⟩

/-- The number of a PDU of the window. -/
theorem place_stores {p : AmPdu} (h : s.Stores content base sent)
    (hSent : base + offset s.vrR.value sn.value < sent)
    (hBrings : p.Brings (base + offset s.vrR.value sn.value)
      (content (base + offset s.vrR.value sn.value)))
    (hPlace : s.place sn p = some t) : t.Stores content base sent := by
  unfold place at hPlace
  split at hPlace
  · split at hPlace
    · cases hPlace
      exact h
    · cases hPlace
  · cases hPlace
    intro v b hEntry
    dsimp only at hEntry ⊢
    by_cases hEq : v = sn.value
    · rw [hEq, Function.update_self] at hEntry
      cases hEntry
      rw [hEq]
      exact ⟨hSent, p, rfl, hBrings⟩
    · rw [Function.update_of_ne hEq] at hEntry
      exact h v b hEntry

theorem updateVrH_total (hReceiver : s.Receiver) (hBase : sn.modulusBase = s.vrR.value) :
    ∃ t, s.updateVrH sn = some t := by
  rw [updateVrH, ge_eq hBase hReceiver.baseH]
  exact ⟨_, rfl⟩

/-- VR(H) passes no number that was not sent. -/
theorem updateVrH_holding (h : s.Holding l cut content base sent delivered) (hReceiver : s.Receiver)
    (hBase : sn.modulusBase = s.vrR.value) (hIn : offset s.vrR.value sn.value < 512)
    (hSent : base + offset s.vrR.value sn.value < sent) (hRun : s.updateVrH sn = some t) :
    t.Holding l cut content base sent delivered := by
  rcases updateVrH_cases hBase hReceiver.baseH hRun with ⟨-, rfl⟩ | ⟨-, rfl⟩
  · have hNext : offset s.vrR.value (sn.add 1).value = offset s.vrR.value sn.value + 1 :=
      offset_add_one (by omega)
    refine ⟨?_, h.stores, ?_⟩
    · obtain ⟨kept, hKeeps, hExactly⟩ := h.assembled.exactly
      exact ⟨⟨kept, ⟨hKeeps.state, hKeeps.keepS0, hKeeps.sdusBuffer⟩, hExactly⟩, h.assembled.expected⟩
    · dsimp only
      omega
  · exact h

theorem updateVrMs_total (h : s.Tracks base got) : ∃ t, s.updateVrMs = some t ∧
    t.assembly = s.assembly := by
  have hBound := offset_lt s.vrR.value s.vrH.value
  obtain ⟨sn', hFirst⟩ := firstIncomplete_total h h.vrMs (by omega : _ < 1024)
  rw [updateVrMs, hFirst]
  exact ⟨_, rfl, rfl⟩

theorem deliverFrom_holding (hChain : Chain l cut content sent) (hDelivering : s.Delivering base got)
    (h : s.Holding l cut content base sent delivered) (sn : SequenceNumber10) :
    ∃ t sdus, s.deliverFrom sn = some (t, deliver sdus) ∧
      t.Holding l cut content (base + offset s.vrR.value t.vrR.value) sent (delivered ++ sdus) := by
  unfold deliverFrom
  split
  · have hBound := offset_lt s.vrR.value s.vrH.value
    obtain ⟨t, sdus, hRun, hEnd⟩ := deliverLoop_holding hChain hDelivering h hBound
    refine ⟨{ t with vrMr := t.vrR.add WINDOW_SIZE }, sdus, ?_, ?_⟩
    · rw [hRun]
      rfl
    · exact hEnd.of_assembly (assembly_vrMr t _)
  · refine ⟨s, [], rfl, ?_⟩
    rw [offset_self, List.append_nil]
    exact h

/-- What is placed is delivered as soon as all before it is. -/
theorem afterPlacing_holding (hChain : Chain l cut content sent) (hPlaced : s.Placed base got sn)
    (h : s.Holding l cut content base sent delivered) (hBase : sn.modulusBase = s.vrR.value)
    (hSent : base + offset s.vrR.value sn.value < sent) :
    ∃ t sdus, s.afterPlacing sn = some (t, deliver sdus) ∧
      t.Holding l cut content (base + offset s.vrR.value t.vrR.value) sent (delivered ++ sdus) := by
  obtain ⟨s₁, hH⟩ := updateVrH_total hPlaced.receiver hBase
  have hHolding₁ := updateVrH_holding h hPlaced.receiver hBase hPlaced.within hSent hH
  have hTracks := (updateVrH_tracks hPlaced.filled hPlaced.within hPlaced.bound hPlaced.vrMs
    hPlaced.vrH hBase hPlaced.receiver.baseH hH).1
  have hOnlyH := (updateVrH_tracks hPlaced.filled hPlaced.within hPlaced.bound hPlaced.vrMs
    hPlaced.vrH hBase hPlaced.receiver.baseH hH).2.1
  have hR : s₁.vrR = s.vrR := by rw [hOnlyH]
  obtain ⟨s₂, hMs, hSame₂⟩ := updateVrMs_total hTracks
  obtain ⟨hDelivering, hR₂, -⟩ := hPlaced.delivering hBase hH hMs
  obtain ⟨s₃, sdus, hDeliver, hHolding₃⟩ :=
    deliverFrom_holding hChain hDelivering (hHolding₁.of_assembly hSame₂) sn
  have hReceiver₁ := (receives_updateVrH hPlaced.receiver hBase hH).receiver
  have hReceiver₂ := (receives_updateVrMs hReceiver₁ hMs).receiver
  have hReceiver₃ := (receives_deliverFrom hReceiver₂ hDeliver).receiver
  obtain ⟨s₄, hStop, hSame₄⟩ := stopReordering_total hReceiver₃
  have hReceiver₄ := (receives_stopReordering hReceiver₃ hStop).receiver
  obtain ⟨s₅, hStart, hSame₅⟩ := startReordering_total hReceiver₄
  have hSame : s₅.assembly = s₃.assembly := hSame₅.trans hSame₄
  have hR₅ : s₅.vrR = s₃.vrR := (congrArg vrR hSame :)
  refine ⟨s₅, sdus, ?_, ?_⟩
  · rw [afterPlacing, hH, Option.bind_eq_bind, Option.bind_some, hMs, Option.bind_eq_bind,
      Option.bind_some, hDeliver, Option.bind_some]
    dsimp only
    rw [hStop, Option.bind_some, hStart]
    rfl
  · rw [hR₅, ← hR₂]
    exact hHolding₃.of_assembly hSame

theorem receiveInWindow_holding {p : AmPdu} (hChain : Chain l cut content sent)
    (hReceiving : s.Receiving base got) (h : s.Holding l cut content base sent delivered)
    (hBase : sn.modulusBase = s.vrR.value)
    (hIn : offset s.vrR.value sn.value < 512 → base + offset s.vrR.value sn.value < sent ∧
      p.Brings (base + offset s.vrR.value sn.value)
        (content (base + offset s.vrR.value sn.value))) :
    ∃ t sdus, s.receiveInWindow sn p = some (t, deliver sdus) ∧
      t.Holding l cut content (base + offset s.vrR.value t.vrR.value) sent (delivered ++ sdus) := by
  obtain ⟨u, inside, hInside⟩ := isInsideReceivingWindow_total hReceiving.receiver sn
  obtain ⟨hU, rfl⟩ := isInsideReceivingWindow_spec hReceiving.receiver hReceiving.vrMr hInside
  have hReceiver := (receives_isInsideReceivingWindow hReceiving.receiver hInside).receiver
  have hR : u.vrR = s.vrR := by rw [hU]
  have hHolding : u.Holding l cut content base sent delivered := by
    rw [hU]
    exact h.of_assembly rfl
  have hWindow : u.Receiving base got := by
    rw [hU] at hReceiver ⊢
    exact hReceiving.of_same hReceiver ⟨rfl, rfl, rfl, rfl⟩ rfl rfl rfl
  rw [receiveInWindow, hInside, Option.bind_eq_bind, Option.bind_some]
  dsimp only
  split
  · next hTrue =>
    have hWithin := of_decide_eq_true hTrue
    obtain ⟨hSent, hBrings⟩ := hIn hWithin
    rw [← hR] at hWithin hSent hBrings hBase ⊢
    obtain ⟨v, hPlace⟩ := place_total hHolding.stores sn p
    have hRV := place_vrR hPlace
    have hHoldingV : v.Holding l cut content base sent delivered := by
      refine ⟨?_, place_stores hHolding.stores hSent hBrings hPlace, ?_⟩
      · rw [place_same hPlace]
        obtain ⟨kept, hKeeps, hExactly⟩ := hHolding.assembled.exactly
        exact ⟨⟨kept, ⟨hKeeps.state, hKeeps.keepS0, hKeeps.sdusBuffer⟩, hExactly⟩,
          hHolding.assembled.expected⟩
      · rw [place_same hPlace]
        exact hHolding.top
    rw [hPlace, Option.bind_some, ← hRV]
    rw [← hRV] at hBase hSent
    exact afterPlacing_holding hChain (hWindow.place hWithin hPlace) hHoldingV hBase hSent
  · refine ⟨u, [], rfl, ?_⟩
    rw [hR, offset_self, List.append_nil]
    exact hHolding

/-- The PDU that an output hands to the MAC. -/
def sentPdu : Output → Option AmPdu
  | .transmitPdu pdu => some pdu
  | _ => none

/-- The SDU that an output hands to the PDCP. -/
def deliveredSdu : Output → Option (List UInt8)
  | .receivePdcpPdu sdu => some sdu
  | _ => none

/-- Nothing is sent and nothing delivered. -/
structure Quiet (out : List Output) : Prop where
  sent : out.filterMap sentPdu = []
  delivered : out.filterMap deliveredSdu = []

theorem quiet_nil : Quiet [] := ⟨rfl, rfl⟩

theorem quiet_report {out : List Output} (h : s.doReportBufferStatus = some out) : Quiet out := by
  unfold doReportBufferStatus at h
  split at h
  · cases h
  · dsimp only at h
    generalize (if (s.statusPduRequested && !s.statusProhibitTimer) = true then
      s.statusPduBufferSize else 0) = statusPduSize at h
    split at h
    · cases h
      exact ⟨rfl, rfl⟩
    · cases h
      exact quiet_nil

theorem filterMap_sentPdu_deliver (sdus : List (List UInt8)) :
    (deliver sdus).filterMap sentPdu = [] := by
  induction sdus with
  | nil => rfl
  | cons sdu sdus ih => exact ih

theorem filterMap_deliveredSdu_deliver (sdus : List (List UInt8)) :
    (deliver sdus).filterMap deliveredSdu = sdus := by
  induction sdus with
  | nil => rfl
  | cons sdu sdus ih => exact congrArg (sdu :: ·) ih

theorem requestStatus_assembly (s : LteRlcAm) (g : LteRlcAmHeader) :
    (s.requestStatus g).assembly = s.assembly := by
  unfold requestStatus
  split
  · rfl
  · rfl

theorem Receiving.requestStatus (h : s.Receiving base got) (g : LteRlcAmHeader) :
    (s.requestStatus g).Receiving base got := by
  unfold LteRlcAm.requestStatus
  split
  · exact h.of_same ⟨h.receiver.baseR, h.receiver.baseX, h.receiver.baseMs, h.receiver.baseH,
      Nat.le_refl 4⟩ ⟨rfl, rfl, rfl, rfl⟩ rfl rfl rfl
  · exact h

/-- The numbers received: a PDU that is in the window or behind it by at most half the numbers. -/
theorem gotData_eq (hBase : num base = s.vrR.value) (hNumber : sn.value = num n)
    (hOld : base ≤ n + 512) (hNew : n < base + 512) :
    s.gotData base got sn = fun k => got k ∨ base ≤ n ∧ k = n := by
  funext k
  rw [gotData, hNumber, ← hBase]
  by_cases hFrom : base ≤ n
  · have hSum := offset_base hFrom (hNew.trans (by omega))
    have hIn : offset (num base) (num n) < 512 := by omega
    rw [hSum, and_iff_right hIn, and_iff_right hFrom]
  · have hSum := offset_base (by omega : base ≤ n + 1024) (by omega)
    rw [num_add_modulus] at hSum
    have hOut : ¬ (offset (num base) (num n) < 512 ∧ k = base + offset (num base) (num n)) :=
      fun hIn => by omega
    rw [or_iff_left hOut, or_iff_left fun hAbove => hFrom hAbove.1]

/-- A data PDU that is not too late: it is received, and no assertion fails. -/
theorem receivesData {p : AmPdu} (hChain : Chain l cut content sent) (hReceiving : s.Receiving base got)
    (h : s.Holding l cut content base sent delivered) (hBase : num base = s.vrR.value)
    (hBrings : p.Brings n (content n)) (hSent : n < sent) (hOld : base ≤ n + 512)
    (hNew : n < base + 512) (hReport : ∀ g, ∃ out, (s.requestStatus g).doReportBufferStatus = some out) :
    ∃ t report sdus, s.doReceivePdu p = some (t, report ++ deliver sdus) ∧ Quiet report ∧
      t.Receiving (base + offset s.vrR.value t.vrR.value) (fun k => got k ∨ base ≤ n ∧ k = n) ∧
      t.Holding l cut content (base + offset s.vrR.value t.vrR.value) sent (delivered ++ sdus) ∧
      Receives s t := by
  obtain ⟨g, hPeek, -, hData, hFlag, hNumber, -, -⟩ := hBrings.read
  have hR : (s.requestStatus g).vrR = s.vrR := (congrArg vrR (s.requestStatus_assembly g) :)
  have hIn : offset (s.requestStatus g).vrR.value (g.sequenceNumber.setModulusBase s.vrR).value < 512 →
      base + offset (s.requestStatus g).vrR.value (g.sequenceNumber.setModulusBase s.vrR).value =
        n := by
    rw [hR, ← hBase]
    change offset (num base) g.sequenceNumber.value < 512 →
      base + offset (num base) g.sequenceNumber.value = n
    rw [hNumber]
    intro hWithin
    by_cases hFrom : base ≤ n
    · exact offset_base hFrom (hNew.trans (by omega))
    · have hSum := offset_base (by omega : base ≤ n + 1024) (by omega)
      rw [num_add_modulus] at hSum
      omega
  have hSn : (g.sequenceNumber.setModulusBase s.vrR).modulusBase =
      (s.requestStatus g).vrR.value := by
    rw [hR]
    rfl
  obtain ⟨t, sdus, hRun, hHolding⟩ := receiveInWindow_holding (p := p) hChain
    (hReceiving.requestStatus g) (h.of_assembly (s.requestStatus_assembly g)) hSn fun hWithin => by
      rw [hIn hWithin]
      exact ⟨hSent, hBrings⟩
  obtain ⟨report, hReported, hQuiet⟩ :
      ∃ report, (s.requestStatus g).reportRequest g = some report ∧ Quiet report := by
    unfold reportRequest
    split
    · obtain ⟨out, hOut⟩ := hReport g
      exact ⟨out, hOut, quiet_report hOut⟩
    · exact ⟨[], rfl, quiet_nil⟩
  have hReceive : s.receiveData g p = some (t, report ++ deliver sdus) := by
    rw [receiveData, if_pos (.inr hFlag), hReported, Option.bind_eq_bind, Option.bind_some, hRun]
    rfl
  have hEnd := receiveData_spec hReceiving hReceive
  rw [gotData_eq hBase hNumber hOld hNew] at hEnd
  rw [hR] at hHolding
  refine ⟨t, report, sdus, ?_, hQuiet, hEnd, hHolding, receives_receiveData hReceiving.receiver hReceive⟩
  rw [doReceivePdu, hPeek, Option.bind_eq_bind, Option.bind_some, if_pos hData, hReceive]

/-- The timer of the reordering expires. -/
theorem expireReorderingTimer_total (h : s.Receiving base got) (hTimer : s.reorderingTimer = true) :
    ∃ t, s.expireReorderingTimer = some t ∧ t.assembly = s.assembly ∧ t.Receiving base got := by
  obtain ⟨-, hLe⟩ := h.timer hTimer
  have hBound := offset_lt s.vrR.value s.vrH.value
  obtain ⟨sn, hFirst⟩ := firstIncomplete_total h.tracks hLe (by omega : _ < 1024)
  have hBase := (firstIncomplete_base hFirst).trans h.receiver.baseX
  have hRun : ∃ t, s.expireReorderingTimer = some t ∧ t.assembly = s.assembly := by
    rw [expireReorderingTimer, hFirst, Option.bind_eq_bind, Option.bind_some]
    dsimp only
    rw [gt_eq (s := s.vrH) h.receiver.baseH hBase, Option.bind_eq_bind, Option.bind_some]
    split
    · exact ⟨_, rfl, rfl⟩
    · exact ⟨_, rfl, rfl⟩
  obtain ⟨t, hRun, hSame⟩ := hRun
  exact ⟨t, hRun, hSame, (expireReorderingTimer_spec h hTimer hRun).1⟩

end LteRlcAm

end Bullet.Rlc
