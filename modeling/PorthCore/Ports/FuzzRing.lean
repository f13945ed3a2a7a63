import PorthCore.Ports.RingSpsc
import PorthCore.Ports.FuzzHarness

/-!
# The differential fuzz test on the ring

The two tasks of the test call the ring of `PorthCore.Ports.RingSpsc`: a step
is one memory access inside a call, with loads as stale as coherence allows, or
one step of the harness.  A call returns with its last access.

The producer pushes to the ring first and to the reference queue afterwards.
In between the ring already hands the descriptor out, and a consumer that is
fast enough finds the reference queue empty.
-/

namespace PorthCore.Ports.FuzzRing

open PorthCore.Verified.Transition
open PorthCore.Verified.Transition.System
open PorthCore.Ports.RingBuffer
open PorthCore.Ports.RingSteps
open PorthCore.Ports.RingSpsc
open PorthCore.Ports.FuzzHarness

/-- The test and the ring it is run on. -/
structure Fuzz where
  harness : Harness
  dut : Spsc

/-- A step of the test: a memory access inside a call of the ring, or a step of
the harness. -/
inductive FuzzStep
  | dut (a : SpscStep)
  | harness (op : Op)

/-- What the producer gives `dut.push`. -/
def argument (draw : Nat → UInt64) : ProducerPc → Option PorthDescriptor
  | .push i => some (desc draw i)
  | _ => none

/-- The descriptor a call of `push` carries. -/
def cargo : PushPc → Option PorthDescriptor
  | .idle => none
  | .loadHead d | .loadTail d _ | .fullTest d _ _ | .slotWrite d _ | .storeHead d _ => some d

/-- The tasks call the ring where their source does. -/
def Calls (draw : Nat → UInt64) (s : Harness) : SpscStep → Prop
  | .callPush d => argument draw s.producer = some d
  | .callPop => s.consumer = .pop
  | .pushLoadTail _ | .pushStep | .popLoadHead _ | .popStep => True

instance (draw : Nat → UInt64) (s : Harness) : DecidablePred (Calls draw s) := fun a =>
  match a with
  | .callPush _ | .callPop => inferInstanceAs (Decidable (_ = _))
  | .pushLoadTail _ | .pushStep | .popLoadHead _ | .popStep => inferInstanceAs (Decidable True)

/-- What a call that returns with this access has returned. -/
def answer (before after : Spsc) : SpscStep → Option Op
  | .pushStep =>
      if after.producer = .idle then some (.pushReturns !before.producer.accepts.isEmpty) else none
  | .popStep =>
      if after.consumer = .idle then some (.popReturns before.consumer.returns.head?) else none
  | .callPush _ | .pushLoadTail _ | .callPop | .popLoadHead _ => none

namespace Fuzz

/-- The harness beside a fresh ring. -/
def start (n : Nat) (slots : Nat → PorthDescriptor) : Fuzz :=
  { harness := .start n, dut := .fresh slots }

/-- The harness takes the answer of a call that returns. -/
def returned (n : Nat) (draw : Nat → UInt64) (s : Fuzz) (dut : Spsc) : Option Op → Option Fuzz
  | none => some { s with dut := dut }
  | some op => (s.harness.step n draw op).map fun h => { harness := h, dut := dut }

/-- An access of the ring, or an act of the harness that is not an answer. -/
def step (size : UInt64) (n : Nat) (draw : Nat → UInt64) (s : Fuzz) : FuzzStep → Option Fuzz
  | .dut a =>
      if ¬s.harness.Aborted ∧ Calls draw s.harness a then
        (s.dut.step size a).bind fun dut => s.returned n draw dut (answer s.dut dut a)
      else none
  | .harness (.pushReturns _) | .harness (.popReturns _) => none
  | .harness op => (s.harness.step n draw op).map fun h => { s with harness := h }

/-- Every schedule of the test on a fresh ring. -/
def system (size : UInt64) (n : Nat) (draw : Nat → UInt64) (slots : Nat → PorthDescriptor) :
    System Fuzz FuzzStep :=
  ofStep (· = start n slots) (step size n draw)

/-! ## What the calls do -/

section Calls

variable {size : UInt64} {seen : PorthRingBuffer}

theorem cargo_eq_none {pc : PushPc} : cargo pc = none ↔ pc = .idle := by
  cases pc <;> simp [cargo]

/-- A step inside `push` keeps the descriptor. -/
theorem cargo_step {pc : PushPc} (h : (pc.step size seen).2 ≠ .idle) :
    cargo (pc.step size seen).2 = cargo pc ∧ pc.accepts = [] := by
  cases pc with
  | fullTest d hd t =>
      simp only [PushPc.step] at h ⊢
      split at h
      · exact absurd rfl h
      · rw [if_neg ‹_›]
        exact ⟨rfl, rfl⟩
  | idle | loadHead d | loadTail d hd | slotWrite d hd => exact ⟨rfl, rfl⟩
  | storeHead d hd => exact absurd rfl h

/-- A call of `push` accepts its descriptor or nothing. -/
theorem accepts_cases (pc : PushPc) :
    pc.accepts = [] ∨ ∃ d, cargo pc = some d ∧ pc.accepts = [d] := by
  cases pc with
  | storeHead d hd => exact .inr ⟨d, rfl, rfl⟩
  | idle | loadHead d | loadTail d hd | fullTest d hd t | slotWrite d hd => exact .inl rfl

private theorem returns_of_not_idle {pc : PopPc} (h : (pc.step size seen).2 ≠ .idle) :
    pc.returns = [] := by
  cases pc with
  | storeTail t d => exact absurd rfl h
  | idle | loadTail | loadHead t | emptyTest t hd | slotRead t => rfl

private theorem returns_eq_toList (pc : PopPc) : pc.returns = pc.returns.head?.toList := by
  cases pc <;> rfl

theorem access_frame (dut : Spsc) (x : Access) :
    (dut.access x).accepted = dut.accepted ∧ (dut.access x).released = dut.released ∧
      (dut.access x).producer = dut.producer ∧ (dut.access x).consumer = dut.consumer := by
  cases x <;> exact ⟨rfl, rfl, rfl, rfl⟩

end Calls

/-! ## The invariant -/

/-- The two histories of the ring are those of the tasks, and a call under way
is the one its task has come to. -/
structure Inv (g : RingGeometry) (n : Nat) (draw : Nat → UInt64) (s : Fuzz) : Prop where
  dut : Spsc.Inv g s.dut
  harness : s.harness.Inv n draw
  accepted : s.dut.accepted = sent draw (s.harness.producer.pushed n)
  released : s.dut.released = s.harness.received
  pushing : ∀ d, cargo s.dut.producer = some d → argument draw s.harness.producer = some d
  popping : s.dut.consumer ≠ .idle → s.harness.consumer = .pop
  alarm : ∀ failed, s.harness.consumer = .aborted failed → failed = .noReference

variable {g : RingGeometry} {n : Nat} {draw : Nat → UInt64} {slots : Nat → PorthDescriptor}
  {s t : Fuzz}

theorem turn_pushed {i : Nat} (h : i ≤ n) : (turn n i).pushed n = i := by
  unfold turn
  split
  · rfl
  · exact Nat.le_antisymm (Nat.le_of_not_lt ‹_›) h

theorem argument_eq_some {pc : ProducerPc} {d : PorthDescriptor}
    (h : argument draw pc = some d) : ∃ i, pc = .push i ∧ d = desc draw i := by
  cases pc with
  | push i => exact ⟨i, rfl, (Option.some.inj h).symm⟩
  | refPush i | count i | setDone | stopped => cases h

namespace Inv

theorem start : Inv g n draw (start n slots) where
  dut := Spsc.fresh_inv g slots
  harness := .start
  accepted := by
    simp only [Fuzz.start, Harness.start, Spsc.fresh]
    rw [turn_pushed (Nat.zero_le n)]
    rfl
  released := rfl
  pushing := by simp [Fuzz.start, Spsc.fresh, cargo]
  popping := fun h => absurd rfl h
  alarm := by simp [Fuzz.start, Harness.start]

/-- The ring hands out an initial part of the sequence. -/
theorem received_prefix (h : Inv g n draw s) :
    s.harness.received <+: sent draw (s.harness.producer.pushed n) := by
  obtain ⟨q, hq, -⟩ := h.dut.queue
  exact ⟨q, by rw [← h.released, ← h.accepted, hq]⟩

/-- The ring keeps its promise, so a comparison can fail for one reason only:
the reference queue does not have the descriptor yet. -/
theorem window (h : Inv g n draw s) {outDut : PorthDescriptor}
    (hpc : s.harness.consumer = .verifyTransfer outDut) (hnot : ¬[outDut] <+: s.harness.ref) :
    s.harness.ref = [] ∧ ∃ i, s.harness.producer = .refPush i ∧
      s.harness.received.length = i + 1 := by
  have hlive : ¬s.harness.Aborted := Harness.not_aborted (by simp [hpc])
  have hseq := h.harness.reference hlive
  have hrec := h.harness.received hlive
  rw [hpc, ConsumerPc.pending] at hrec
  have hprefix := h.received_prefix
  have hlen : s.harness.received.length = s.harness.passed + 1 := by
    rw [hrec, List.length_append, length_sent, List.length_singleton]
  have hle := hprefix.length_le
  rw [hlen, length_sent] at hle
  have hdesc : outDut = desc draw s.harness.passed := by
    have heq := eq_sent_of_prefix hprefix
    rw [hlen, hrec, sent_succ] at heq
    exact List.singleton_inj.mp (List.append_cancel_left heq)
  have hcount := congrArg List.length hseq
  rw [List.length_append, length_sent, length_sent] at hcount
  have hempty : s.harness.ref = [] := by
    by_contra hne
    have hlt : s.harness.passed < s.harness.producer.referenced n := by
      have := List.length_pos_iff.mpr hne
      omega
    apply hnot
    have hnext : sent draw (s.harness.passed + 1) <+: sent draw s.harness.passed ++ s.harness.ref :=
      hseq ▸ sent_isPrefix hlt
    rw [sent_succ, List.prefix_append_right_inj] at hnext
    exact hdesc ▸ hnext
  rw [hempty, List.length_nil, Nat.add_zero] at hcount
  rw [hlen]
  cases hproducer : s.harness.producer with
  | refPush i =>
      rw [hproducer] at hcount
      exact ⟨hempty, i, rfl, congrArg (· + 1) hcount⟩
  | push i | count i | setDone | stopped =>
      rw [hproducer] at hcount hle
      simp only [ProducerPc.referenced, ProducerPc.pushed] at hcount hle
      omega

/-- A step of `push` that stays inside the call. -/
theorem push_stays (h : Inv g n draw s) {dut : Spsc} (hdut : Spsc.Inv g dut)
    (haccepted : dut.accepted = s.dut.accepted) (hreleased : dut.released = s.dut.released)
    (hcargo : cargo dut.producer = cargo s.dut.producer)
    (hconsumer : dut.consumer = s.dut.consumer) : Inv g n draw { s with dut := dut } where
  dut := hdut
  harness := h.harness
  accepted := haccepted.trans h.accepted
  released := hreleased.trans h.released
  pushing := fun d hd => h.pushing d (hcargo ▸ hd)
  popping := fun hne => h.popping (hconsumer ▸ hne)
  alarm := h.alarm

/-- A step of `pop` that stays inside the call. -/
theorem pop_stays (h : Inv g n draw s) {dut : Spsc} (hdut : Spsc.Inv g dut)
    (haccepted : dut.accepted = s.dut.accepted) (hreleased : dut.released = s.dut.released)
    (hproducer : dut.producer = s.dut.producer) (hpop : s.harness.consumer = .pop) :
    Inv g n draw { s with dut := dut } where
  dut := hdut
  harness := h.harness
  accepted := haccepted.trans h.accepted
  released := hreleased.trans h.released
  pushing := fun d hd => h.pushing d (hproducer ▸ hd)
  popping := fun _ => hpop
  alarm := h.alarm

theorem pushStep (h : Inv g n draw s) {dut : Spsc}
    (hdut : s.dut.step g.size .pushStep = some dut)
    (hstep : s.returned n draw dut (answer s.dut dut .pushStep) = some t) : Inv g n draw t := by
  have hnext := h.dut.step hdut
  have hpushed : dut = s.dut.pushed g.size ∧ s.dut.producer ≠ .idle := by
    simp only [Spsc.step] at hdut
    split at hdut
    · cases hdut
    · cases hdut
    · next hidle _ => exact ⟨(Option.some.inj hdut).symm, hidle⟩
  obtain ⟨rfl, hidle⟩ := hpushed
  obtain ⟨-, hreleased, -, hconsumer⟩ :=
    access_frame s.dut (s.dut.producer.step g.size s.dut.memory).1
  by_cases hreturns : (s.dut.producer.step g.size s.dut.memory).2 = .idle
  · obtain ⟨d, hd⟩ := Option.ne_none_iff_exists'.mp (mt cargo_eq_none.mp hidle)
    obtain ⟨i, hi, rfl⟩ := argument_eq_some (h.pushing d hd)
    have hanswer : answer s.dut (s.dut.pushed g.size) .pushStep =
        some (.pushReturns !s.dut.producer.accepts.isEmpty) := if_pos hreturns
    rw [hanswer, returned, Option.map_eq_some_iff] at hstep
    obtain ⟨harness, hharness, rfl⟩ := hstep
    have hinv := h.harness.step hharness
    obtain ⟨-, hmoved⟩ := Harness.step_eq_some hharness
    simp only [Harness.moved, hi, Option.some.injEq] at hmoved
    subst hmoved
    refine
      { dut := hnext
        harness := hinv
        accepted := ?_
        released := hreleased.trans h.released
        pushing := fun d' hd' => ?_
        popping := fun hne => h.popping (hconsumer ▸ hne)
        alarm := h.alarm }
    · have hbefore := h.accepted
      rw [hi, ProducerPc.pushed] at hbefore
      rcases accepts_cases s.dut.producer with hnone | ⟨d', hd', haccepts⟩
      · simp [Spsc.pushed, hnone, hbefore, ProducerPc.pushed]
      · obtain rfl := Option.some.inj (hd.symm.trans hd')
        simp [Spsc.pushed, haccepts, hbefore, ProducerPc.pushed, sent_succ]
    · have hgone : cargo (s.dut.pushed g.size).producer = none := cargo_eq_none.mpr hreturns
      cases hgone.symm.trans hd'
  · have hanswer : answer s.dut (s.dut.pushed g.size) .pushStep = none := if_neg hreturns
    rw [hanswer] at hstep
    obtain rfl := Option.some.inj hstep
    obtain ⟨hcargo, haccepts⟩ := cargo_step hreturns
    refine h.push_stays hnext ?_ hreleased hcargo hconsumer
    exact (congrArg (s.dut.accepted ++ ·) haccepts).trans (List.append_nil _)

theorem popStep (h : Inv g n draw s) {dut : Spsc}
    (hdut : s.dut.step g.size .popStep = some dut)
    (hstep : s.returned n draw dut (answer s.dut dut .popStep) = some t) : Inv g n draw t := by
  have hnext := h.dut.step hdut
  have hpopped : dut = s.dut.popped g.size ∧ s.dut.consumer ≠ .idle := by
    simp only [Spsc.step] at hdut
    split at hdut
    · cases hdut
    · cases hdut
    · next hidle _ => exact ⟨(Option.some.inj hdut).symm, hidle⟩
  obtain ⟨rfl, hidle⟩ := hpopped
  have hpop := h.popping hidle
  obtain ⟨haccepted, -, hproducer, -⟩ :=
    access_frame s.dut (s.dut.consumer.step g.size s.dut.memory).1
  by_cases hreturns : (s.dut.consumer.step g.size s.dut.memory).2 = .idle
  · have hanswer : answer s.dut (s.dut.popped g.size) .popStep =
        some (.popReturns s.dut.consumer.returns.head?) := if_pos hreturns
    rw [hanswer, returned, Option.map_eq_some_iff] at hstep
    obtain ⟨harness, hharness, rfl⟩ := hstep
    have hinv := h.harness.step hharness
    obtain ⟨-, hmoved⟩ := Harness.step_eq_some hharness
    have hkept : harness.producer = s.harness.producer ∧
        harness.received = s.harness.received ++ s.dut.consumer.returns ∧
        ¬harness.Aborted := by
      rw [returns_eq_toList]
      cases hout : s.dut.consumer.returns.head? with
      | none =>
          simp only [Harness.moved, hpop, hout, Option.some.injEq] at hmoved
          subst hmoved
          exact ⟨rfl, (List.append_nil _).symm, Harness.not_aborted (by simp)⟩
      | some out =>
          simp only [Harness.moved, hpop, hout, Option.some.injEq] at hmoved
          subst hmoved
          exact ⟨rfl, rfl, Harness.not_aborted (by simp)⟩
    obtain ⟨hsame, hreceived, hlive⟩ := hkept
    exact
      { dut := hnext
        harness := hinv
        accepted := haccepted.trans (hsame ▸ h.accepted)
        released := (congrArg (· ++ _) h.released).trans hreceived.symm
        pushing := fun d hd => hsame ▸ h.pushing d (hproducer ▸ hd)
        popping := fun hne => absurd hreturns hne
        alarm := fun failed hfailed => absurd ⟨failed, hfailed⟩ hlive }
  · have hanswer : answer s.dut (s.dut.popped g.size) .popStep = none := if_neg hreturns
    rw [hanswer] at hstep
    obtain rfl := Option.some.inj hstep
    refine h.pop_stays hnext haccepted ?_ hproducer hpop
    have hreturns := returns_of_not_idle hreturns
    exact (congrArg (s.dut.released ++ ·) hreturns).trans (List.append_nil _)

private theorem dutStep (h : Inv g n draw s) {a : SpscStep} {dut : Spsc}
    (hcalls : Calls draw s.harness a) (hdut : s.dut.step g.size a = some dut)
    (hstep : s.returned n draw dut (answer s.dut dut a) = some t) : Inv g n draw t := by
  have hnext := h.dut.step hdut
  cases a with
  | callPush d =>
      obtain rfl := Option.some.inj hstep
      simp only [Spsc.step] at hdut
      split at hdut
      · cases hdut
        exact
          { dut := hnext
            harness := h.harness
            accepted := h.accepted
            released := h.released
            pushing := fun d' hd' => Option.some.inj hd' ▸ hcalls
            popping := h.popping
            alarm := h.alarm }
      · cases hdut
  | pushLoadTail position =>
      obtain rfl := Option.some.inj hstep
      simp only [Spsc.step] at hdut
      split at hdut
      · next d hd hpc =>
          obtain ⟨tail, -, rfl⟩ := Option.map_eq_some_iff.mp hdut
          exact h.push_stays hnext rfl rfl (by rw [hpc]; rfl) rfl
      · cases hdut
  | pushStep => exact h.pushStep hdut hstep
  | callPop =>
      obtain rfl := Option.some.inj hstep
      simp only [Spsc.step] at hdut
      split at hdut
      · cases hdut
        exact h.pop_stays hnext rfl rfl rfl hcalls
      · cases hdut
  | popLoadHead position =>
      obtain rfl := Option.some.inj hstep
      simp only [Spsc.step] at hdut
      split at hdut
      · next tail hpc =>
          obtain ⟨hd, -, rfl⟩ := Option.map_eq_some_iff.mp hdut
          exact h.pop_stays hnext rfl rfl rfl (h.popping (by simp [hpc]))
      · cases hdut
  | popStep => exact h.popStep hdut hstep

/-- A step of the producer outside the ring. -/
theorem producerStep (h : Inv g n draw s) {harness : Harness} (hinv : harness.Inv n draw)
    (hnone : argument draw s.harness.producer = none)
    (hpushed : harness.producer.pushed n = s.harness.producer.pushed n)
    (hreceived : harness.received = s.harness.received)
    (hconsumer : harness.consumer = s.harness.consumer) :
    Inv g n draw { s with harness := harness } where
  dut := h.dut
  harness := hinv
  accepted := hpushed ▸ h.accepted
  released := hreceived ▸ h.released
  pushing := fun d hd => by cases hnone.symm.trans (h.pushing d hd)
  popping := fun hne => hconsumer ▸ h.popping hne
  alarm := hconsumer ▸ h.alarm

/-- A step of the consumer outside the ring. -/
theorem consumerStep (h : Inv g n draw s) {harness : Harness} (hinv : harness.Inv n draw)
    (hpop : s.harness.consumer ≠ .pop) (hproducer : harness.producer = s.harness.producer)
    (hreceived : harness.received = s.harness.received)
    (halarm : ∀ failed, harness.consumer = .aborted failed → failed = .noReference) :
    Inv g n draw { s with harness := harness } where
  dut := h.dut
  harness := hinv
  accepted := hproducer ▸ h.accepted
  released := hreceived ▸ h.released
  pushing := hproducer ▸ h.pushing
  popping := fun hne => absurd (h.popping hne) hpop
  alarm := halarm

private theorem harnessStep (h : Inv g n draw s) {op : Op} {harness : Harness}
    (hpush : ∀ ok, op ≠ .pushReturns ok) (hpop : ∀ out, op ≠ .popReturns out)
    (hstep : s.harness.step n draw op = some harness) :
    Inv g n draw { s with harness := harness } := by
  have hinv := h.harness.step hstep
  have hwithin := h.harness.within
  obtain ⟨-, hmoved⟩ := Harness.step_eq_some hstep
  cases op with
  | pushReturns ok => exact absurd rfl (hpush ok)
  | popReturns out => exact absurd rfl (hpop out)
  | refPush =>
      simp only [Harness.moved] at hmoved
      split at hmoved
      · next i hpc =>
          cases hmoved
          exact h.producerStep hinv (by rw [hpc]; rfl) (by rw [hpc]; rfl) rfl rfl
      · cases hmoved
  | countPush =>
      simp only [Harness.moved] at hmoved
      split at hmoved
      · next i hpc =>
          cases hmoved
          rw [hpc] at hwithin
          exact h.producerStep hinv (by rw [hpc]; rfl) (by rw [hpc]; exact turn_pushed hwithin)
            rfl rfl
      · cases hmoved
  | setDone =>
      simp only [Harness.moved] at hmoved
      split at hmoved
      · next hpc =>
          cases hmoved
          exact h.producerStep hinv (by rw [hpc]; rfl) (by rw [hpc]; rfl) rfl rfl
      · cases hmoved
  | loopTest =>
      simp only [Harness.moved] at hmoved
      split at hmoved
      · next hpc =>
          cases hmoved
          refine h.consumerStep hinv (by simp [hpc]) rfl rfl ?_
          dsimp only
          split <;> simp
      · cases hmoved
  | verifyTransfer =>
      simp only [Harness.moved] at hmoved
      split at hmoved
      · next outDut hpc =>
          cases hmoved
          rcases s.harness.verified_cases outDut with
            ⟨rest, -, hverified⟩ | ⟨hnot, failed, rest, hverified, hreason⟩
          · refine h.consumerStep hinv (by simp [hpc]) (by rw [hverified]) (by rw [hverified]) ?_
            rw [hverified]
            simp
          · refine h.consumerStep hinv (by simp [hpc]) (by rw [hverified]) (by rw [hverified]) ?_
            rw [hverified]
            rintro _ ⟨⟩
            exact hreason.mpr (h.window hpc hnot).1
      · cases hmoved
  | countPop =>
      simp only [Harness.moved] at hmoved
      split at hmoved
      · next hpc =>
          cases hmoved
          exact h.consumerStep hinv (by simp [hpc]) rfl rfl (by simp)
      · cases hmoved

theorem step (h : Inv g n draw s) {a : FuzzStep} (hstep : s.step g.size n draw a = some t) :
    Inv g n draw t := by
  unfold Fuzz.step at hstep
  split at hstep
  · next a =>
      split at hstep
      · next hcalls =>
          obtain ⟨dut, hdut, hreturned⟩ := Option.bind_eq_some_iff.mp hstep
          exact h.dutStep hcalls.2 hdut hreturned
      · cases hstep
  · cases hstep
  · cases hstep
  · next op hpush hpop =>
      obtain ⟨harness, hharness, rfl⟩ := Option.map_eq_some_iff.mp hstep
      exact h.harnessStep (fun ok heq => hpush ok (heq ▸ rfl)) (fun out heq => hpop out (heq ▸ rfl))
        hharness

theorem of_reachable (h : (system g.size n draw slots).Reachable s) : Inv g n draw s :=
  h.invariant (fun _ hs => hs ▸ Inv.start) (fun _ _ _ hs hstep => hs.step hstep)

end Inv

/-- **The only false alarm**: on the ring, in every interleaving and with every
stale load, what the test receives is an initial part of the generated sequence
and no comparison ever finds a difference.  The test aborts exactly if it
compares a descriptor while the producer stands between pushing that one to the
ring and pushing it to the reference queue. -/
theorem aborts_in_window_only (h : (system g.size n draw slots).Reachable s) :
    s.harness.received <+: sent draw n ∧
      (∀ failed, s.harness.consumer = .aborted failed → failed = .noReference) ∧
      ∀ outDut t, s.harness.consumer = .verifyTransfer outDut →
        s.step g.size n draw (.harness .verifyTransfer) = some t →
          (t.harness.Aborted ↔ ∃ i, s.harness.producer = .refPush i ∧
            s.harness.received.length = i + 1) := by
  have hinv := Inv.of_reachable h
  refine ⟨hinv.received_prefix.trans (sent_isPrefix hinv.harness.within.pushed_le), hinv.alarm, ?_⟩
  intro outDut t hpc hstep
  obtain ⟨harness, hharness, rfl⟩ := Option.map_eq_some_iff.mp hstep
  obtain ⟨hlive, hmoved⟩ := Harness.step_eq_some hharness
  have hverified : s.harness.verified outDut = harness := by
    simpa [Harness.moved, hpc] using hmoved
  subst hverified
  rcases s.harness.verified_cases outDut with
    ⟨rest, href, hverified⟩ | ⟨hnot, failed, rest, hverified, -⟩
  · refine iff_of_false (Harness.not_aborted (by simp [hverified])) ?_
    rintro ⟨i, hi, hlen⟩
    obtain ⟨hlt, -⟩ := hinv.harness.verify_passed hpc href
    have hrec := hinv.harness.received hlive
    rw [hpc, ConsumerPc.pending] at hrec
    rw [hrec, List.length_append, length_sent, List.length_singleton] at hlen
    rw [hi, ProducerPc.referenced] at hlt
    omega
  · exact iff_of_true ⟨failed, by rw [hverified]⟩ (hinv.window hpc hnot).2

/-- The consumer is fast: it compares the first descriptor before the producer
has come to the reference queue. -/
def race : List FuzzStep :=
  [.dut (.callPush { addr := 5, len := 0 }), .dut .pushStep, .dut (.pushLoadTail 0),
    .dut .pushStep, .dut .pushStep, .dut .pushStep, .harness .loopTest, .dut .callPop,
    .dut .popStep, .dut (.popLoadHead 1), .dut .popStep, .dut .popStep, .dut .popStep]

theorem aborts_in_window_only_race :
    ∃ s t, (system RingGeometry.default1024.size 1 (fun _ => 5) fun _ => default).Reachable s ∧
      s.step RingGeometry.default1024.size 1 (fun _ => 5) (.harness .verifyTransfer) = some t ∧
      (t.harness.Aborted ↔ ∃ i, s.harness.producer = .refPush i ∧
        s.harness.received.length = i + 1) ∧ t.harness.Aborted := by
  obtain ⟨s, hexec, hpc⟩ := exec_of_any (step RingGeometry.default1024.size 1 fun _ => 5)
    (start 1 fun _ => default) race
    (fun s => s.harness.consumer = .verifyTransfer { addr := 5, len := 0 } ∧
      ((s.step RingGeometry.default1024.size 1 (fun _ => 5) (.harness .verifyTransfer)).any
        fun t => t.harness.Aborted)) (by decide +kernel)
  simp only [Bool.decide_and, Bool.and_eq_true, decide_eq_true_eq, Option.any_eq_true] at hpc
  obtain ⟨hat, t, hstep, haborted⟩ := hpc
  have hreach :
      (system RingGeometry.default1024.size 1 (fun _ => 5) fun _ => default).Reachable s :=
    reachable_of_exec rfl hexec
  exact ⟨s, t, hreach, hstep, (aborts_in_window_only hreach).2.2 _ t hat hstep,
    by simpa using haborted⟩

end Fuzz

end PorthCore.Ports.FuzzRing
