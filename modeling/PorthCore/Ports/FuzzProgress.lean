import PorthCore.Ports.FuzzRing

/-!
# The differential fuzz test can always still end

Neither task of the test waits for something the other cannot give it: on a
ring of two slots or more, from every state in which no assertion has failed,
some schedule ends the test with its success.  The schedule is found one step
at a time, and `rank` says how much is left: the producer goes on as long as
the ring has room, the consumer when it does not.

A call that has already read the other side's index may be bound to fail; its
rank lies above that of the call it leads to.
-/

namespace PorthCore.Ports.FuzzProgress

open PorthCore.Verified
open PorthCore.Verified.Transition
open PorthCore.Verified.Transition.System
open PorthCore.Ports.RingBuffer
open PorthCore.Ports.RingSteps
open PorthCore.Ports.RingSpsc
open PorthCore.Ports.FuzzHarness
open PorthCore.Ports.FuzzRing
open PorthCore.Ports.FuzzRing.Fuzz

/-! ## What is left to do -/

/-- The steps a call of `push` has left; a call that has found the ring full
has all of them to do again. -/
def pushRank (size : UInt64) : PushPc → Nat
  | .idle => 6
  | .loadHead _ => 5
  | .loadTail _ _ => 4
  | .fullTest _ h t => if advance size h = t.toUInt64 then 7 else 3
  | .slotWrite _ _ => 2
  | .storeHead _ _ => 1

/-- What the producer has left to do; a call that succeeds lowers it. -/
def producerRank (size : UInt64) (n : Nat) (pc : PushPc) : ProducerPc → Nat
  | .push i => 10 * (n - i) + pushRank size pc
  | .refPush i => 10 * (n - i)
  | .count i => 10 * (n - i) - 1
  | .setDone => 1
  | .stopped => 0

/-- The steps a call of `pop` has left; where everything has been compared
(`last`) it can only find the ring empty. -/
def popRank (last : Bool) : PopPc → Nat
  | .idle => if last then 13 else 7
  | .loadTail => if last then 12 else 6
  | .loadHead _ => if last then 11 else 5
  | .emptyTest t h => if h = t then 9 else 4
  | .slotRead _ => 3
  | .storeTail _ _ => 2

/-- What the consumer has left to do; a call that succeeds lowers it. -/
def consumerRank (n passed : Nat) (pc : PopPc) : ConsumerPc → Nat
  | .loopTest => 10 * (n - passed) + 8
  | .pop => 10 * (n - passed) + popRank (n ≤ passed) pc
  | .verifyTransfer _ => 10 * (n - passed) + 1
  | .count => 10 * (n - passed) + 9
  | .stopped | .aborted _ => 0

/-- What the two tasks have left. -/
def rank (size : UInt64) (n : Nat) (s : Fuzz) : Nat :=
  producerRank size n s.dut.producer s.harness.producer +
    consumerRank n s.harness.passed s.dut.consumer s.harness.consumer

/-- Both threads have ended, and the test prints its success. -/
def Succeeded (s : Fuzz) : Prop :=
  s.harness.producer = .stopped ∧ s.harness.consumer = .stopped

/-- Some step brings the end nearer. -/
def Nearer (size : UInt64) (n : Nat) (draw : Nat → UInt64) (s : Fuzz) : Prop :=
  ∃ a t, s.step size n draw a = some t ∧ ¬t.harness.Aborted ∧ rank size n t < rank size n s

section

variable {g : RingGeometry} {n : Nat} {draw : Nat → UInt64} {s t : Fuzz}

theorem rank_lt_of_producer {size : UInt64} (hpassed : t.harness.passed = s.harness.passed)
    (hconsumer : t.harness.consumer = s.harness.consumer)
    (hpc : t.dut.consumer = s.dut.consumer)
    (hlt : producerRank size n t.dut.producer t.harness.producer <
      producerRank size n s.dut.producer s.harness.producer) :
    rank size n t < rank size n s := by
  rw [rank, rank, hpassed, hconsumer, hpc]
  exact Nat.add_lt_add_right hlt _

theorem rank_lt_of_consumer {size : UInt64} (hproducer : t.harness.producer = s.harness.producer)
    (hpc : t.dut.producer = s.dut.producer)
    (hlt : consumerRank n t.harness.passed t.dut.consumer t.harness.consumer <
      consumerRank n s.harness.passed s.dut.consumer s.harness.consumer) :
    rank size n t < rank size n s := by
  rw [rank, rank, hproducer, hpc]
  exact Nat.add_lt_add_left hlt _

/-! ## Steps of the harness and of the ring -/

/-- The harness outside the ring. -/
theorem nearer_of_harness {size : UInt64} (op : Op) {harness : Harness}
    (hpush : ∀ ok, op ≠ .pushReturns ok) (hpop : ∀ out, op ≠ .popReturns out)
    (hlive : ¬s.harness.Aborted) (hmoved : s.harness.moved n draw op = some harness)
    (hnext : ¬harness.Aborted) (hlt : rank size n { s with harness := harness } < rank size n s) :
    Nearer size n draw s := by
  have hstep : s.harness.step n draw op = some harness := by
    rw [Harness.step, if_neg hlive, hmoved]
  refine ⟨.harness op, { s with harness := harness }, ?_, hnext, hlt⟩
  cases op with
  | pushReturns ok => exact absurd rfl (hpush ok)
  | popReturns out => exact absurd rfl (hpop out)
  | refPush | countPush | setDone | loopTest | verifyTransfer | countPop =>
      exact congrArg (Option.map _) hstep

/-- An access of the ring inside a call. -/
theorem nearer_of_access {size : UInt64} (a : SpscStep) {dut : Spsc}
    (hlive : ¬s.harness.Aborted) (hcalls : Calls draw s.harness a)
    (hdut : s.dut.step size a = some dut) (hanswer : answer s.dut dut a = none)
    (hlt : rank size n { s with dut := dut } < rank size n s) : Nearer size n draw s := by
  refine ⟨.dut a, { s with dut := dut }, ?_, hlive, hlt⟩
  rw [Fuzz.step, if_pos ⟨hlive, hcalls⟩, hdut, Option.bind_some, hanswer]
  rfl

/-- The last access of a call. -/
theorem nearer_of_return {size : UInt64} (a : SpscStep) {dut : Spsc} (op : Op)
    {harness : Harness} (hlive : ¬s.harness.Aborted) (hcalls : Calls draw s.harness a)
    (hdut : s.dut.step size a = some dut) (hanswer : answer s.dut dut a = some op)
    (hmoved : s.harness.moved n draw op = some harness) (hnext : ¬harness.Aborted)
    (hlt : rank size n { harness := harness, dut := dut } < rank size n s) :
    Nearer size n draw s := by
  have hstep : s.harness.step n draw op = some harness := by
    rw [Harness.step, if_neg hlive, hmoved]
  refine ⟨.dut a, { harness := harness, dut := dut }, ?_, hnext, hlt⟩
  rw [Fuzz.step, if_pos ⟨hlive, hcalls⟩, hdut, Option.bind_some, hanswer, returned, hstep]
  rfl

/-! ## The producer -/

/-- Outside its calls of `push` the producer can always go on. -/
theorem nearer_of_produced (h : Inv g n draw s) (hlive : ¬s.harness.Aborted)
    (hpush : ∀ i, s.harness.producer ≠ .push i) (hstopped : s.harness.producer ≠ .stopped) :
    Nearer g.size n draw s := by
  have hwithin := h.harness.within
  cases hpc : s.harness.producer with
  | push i => exact absurd hpc (hpush i)
  | stopped => exact absurd hpc hstopped
  | refPush i =>
      rw [hpc] at hwithin
      have hmoved : s.harness.moved n draw .refPush =
          some { s.harness with ref := s.harness.ref ++ [desc draw i], producer := .count i } := by
        simp only [Harness.moved, hpc]
      refine nearer_of_harness .refPush (by simp) (by simp) hlive hmoved hlive ?_
      refine rank_lt_of_producer rfl rfl rfl ?_
      simp only [ProducerPc.Within] at hwithin
      simp only [hpc, producerRank]
      omega
  | count i =>
      rw [hpc] at hwithin
      have hidle : s.dut.producer = .idle := by
        by_contra hne
        obtain ⟨d, hd⟩ := Option.ne_none_iff_exists'.mp (mt cargo_eq_none.mp hne)
        have hargument := h.pushing d hd
        rw [hpc] at hargument
        cases hargument
      have hmoved : s.harness.moved n draw .countPush =
          some { s.harness with
            pushedCount := s.harness.pushedCount + 1, producer := turn n (i + 1) } := by
        simp only [Harness.moved, hpc]
      refine nearer_of_harness .countPush (by simp) (by simp) hlive hmoved hlive ?_
      refine rank_lt_of_producer rfl rfl rfl ?_
      simp only [ProducerPc.Within] at hwithin
      simp only [hpc, hidle, turn]
      split
      · simp only [producerRank, pushRank]
        omega
      · simp only [producerRank]
        omega
  | setDone =>
      have hmoved : s.harness.moved n draw .setDone =
          some { s.harness with producerDone := true, producer := .stopped } := by
        simp only [Harness.moved, hpc]
      refine nearer_of_harness .setDone (by simp) (by simp) hlive hmoved hlive ?_
      refine rank_lt_of_producer rfl rfl rfl ?_
      simp only [hpc, producerRank]
      omega

/-- A call of `push` under way can go on, whatever it has read. -/
theorem nearer_of_pushing (h : Inv g n draw s) (hlive : ¬s.harness.Aborted)
    (hidle : s.dut.producer ≠ .idle) (hload : ∀ d hd, s.dut.producer ≠ .loadTail d hd) :
    Nearer g.size n draw s := by
  obtain ⟨d, hd⟩ := Option.ne_none_iff_exists'.mp (mt cargo_eq_none.mp hidle)
  obtain ⟨i, hi, rfl⟩ := argument_eq_some (h.pushing d hd)
  have hwithin := h.harness.within
  rw [hi, ProducerPc.Within] at hwithin
  have hdut : s.dut.step g.size .pushStep = some (s.dut.pushed g.size) := by
    cases hpc : s.dut.producer with
    | idle => exact absurd hpc hidle
    | loadTail d hd => exact absurd hpc (hload d hd)
    | loadHead d | fullTest d hd t | slotWrite d hd | storeHead d hd =>
        simp only [Spsc.step, hpc]
  obtain ⟨-, -, -, hconsumer⟩ := access_frame s.dut (s.dut.producer.step g.size s.dut.memory).1
  have hreturn (ok : Bool) (hreturns : (s.dut.pushed g.size).producer = .idle)
      (hok : (!s.dut.producer.accepts.isEmpty) = ok)
      (hlt : 10 * (n - i) + (if ok then 0 else 6) < 10 * (n - i) + pushRank g.size s.dut.producer) :
      Nearer g.size n draw s := by
    have hanswer : answer s.dut (s.dut.pushed g.size) .pushStep = some (.pushReturns ok) :=
      hok ▸ if_pos hreturns
    have hmoved : s.harness.moved n draw (.pushReturns ok) =
        some { s.harness with producer := if ok then .refPush i else .push i } := by
      simp only [Harness.moved, hi]
    refine nearer_of_return .pushStep (.pushReturns ok) hlive trivial hdut hanswer hmoved hlive ?_
    refine rank_lt_of_producer rfl rfl hconsumer ?_
    rw [hi, hreturns]
    cases ok <;> exact hlt
  cases hpc : s.dut.producer with
  | idle => exact absurd hpc hidle
  | loadTail d hd => exact absurd hpc (hload d hd)
  | loadHead d =>
      refine nearer_of_access .pushStep hlive trivial hdut ?_ ?_
      · simp [answer, Spsc.pushed, hpc, PushPc.step]
      · refine rank_lt_of_producer rfl rfl hconsumer ?_
        simp only [hi, hpc, Spsc.pushed, PushPc.step, producerRank, pushRank]
        omega
  | slotWrite d hd =>
      refine nearer_of_access .pushStep hlive trivial hdut ?_ ?_
      · simp [answer, Spsc.pushed, hpc, PushPc.step]
      · refine rank_lt_of_producer rfl rfl hconsumer ?_
        simp only [hi, hpc, Spsc.pushed, PushPc.step, producerRank, pushRank]
        omega
  | storeHead d hd =>
      refine hreturn true (by simp [Spsc.pushed, hpc, PushPc.step]) (by rw [hpc]; rfl) ?_
      rw [hpc]
      exact Nat.lt_succ_self _
  | fullTest d hd t =>
      by_cases hfull : advance g.size hd = t.toUInt64
      · refine hreturn false (by simp [Spsc.pushed, hpc, PushPc.step, hfull]) (by rw [hpc]; rfl) ?_
        rw [hpc, pushRank, if_pos hfull]
        exact Nat.lt_succ_self _
      · refine nearer_of_access .pushStep hlive trivial hdut ?_ ?_
        · simp [answer, Spsc.pushed, hpc, PushPc.step, hfull]
        · refine rank_lt_of_producer rfl rfl hconsumer ?_
          simp only [hi, hpc, Spsc.pushed, PushPc.step, producerRank, pushRank, if_neg hfull]
          omega

/-- With room in the ring a call of `push` can begin, and its load of `m_tail`
can see the room. -/
theorem nearer_of_room (h : Inv g n draw s) (hlive : ¬s.harness.Aborted) {i : Nat}
    (hi : s.harness.producer = .push i) {q : List PorthDescriptor}
    (hrep : Represents g s.dut.memory s.dut.released.length q) (hroom : q.length + 1 < g.period) :
    Nearer g.size n draw s := by
  cases hpc : s.dut.producer with
  | idle =>
      have hcalls : Calls draw s.harness (.callPush (desc draw i)) := by
        rw [Calls, hi]
        rfl
      have hdut : s.dut.step g.size (.callPush (desc draw i)) =
          some { s.dut with producer := .loadHead (desc draw i) } := by
        simp only [Spsc.step, hpc]
      refine nearer_of_access _ hlive hcalls hdut rfl ?_
      refine rank_lt_of_producer rfl rfl rfl ?_
      simp only [hi, hpc, producerRank, pushRank]
      omega
  | loadTail d hd =>
      have hok := h.dut.producerOk
      rw [hpc] at hok
      have hload : s.dut.tail.load s.dut.tailView s.dut.tail.latest = some s.dut.tail.current :=
        Location.load_latest (h.dut.tailLatest ▸ h.dut.tailView_le)
      have hdut : s.dut.step g.size (.pushLoadTail s.dut.tail.latest) =
          some { s.dut with
            tailView := s.dut.tail.latest
            producer := .fullTest d hd s.dut.tail.current } := by
        simp only [Spsc.step, hpc, hload, Option.map_some, PushPc.step]
      have hnot : advance g.size hd ≠ s.dut.tail.current.toUInt64 := by
        rw [hok]
        exact mt hrep.full_iff.mp (by omega)
      refine nearer_of_access (.pushLoadTail _) hlive trivial hdut rfl ?_
      refine rank_lt_of_producer rfl rfl rfl ?_
      simp only [hi, hpc, producerRank, pushRank, if_neg hnot]
      omega
  | loadHead d =>
      exact nearer_of_pushing h hlive (by simp [hpc]) (by simp [hpc])
  | fullTest d hd t =>
      exact nearer_of_pushing h hlive (by simp [hpc]) (by simp [hpc])
  | slotWrite d hd =>
      exact nearer_of_pushing h hlive (by simp [hpc]) (by simp [hpc])
  | storeHead d hd =>
      exact nearer_of_pushing h hlive (by simp [hpc]) (by simp [hpc])

/-! ## The consumer -/

/-- A call of `pop` under way can go on; where its loads matter, there is
something to pop or nothing left to compare. -/
theorem nearer_of_popping (h : Inv g n draw s) (hlive : ¬s.harness.Aborted)
    (hpop : s.harness.consumer = .pop)
    (hdata : s.dut.released.length < s.dut.accepted.length ∨ n ≤ s.harness.passed) :
    Nearer g.size n draw s := by
  obtain ⟨-, -, hproducer, -⟩ := access_frame s.dut (s.dut.consumer.step g.size s.dut.memory).1
  cases hpc : s.dut.consumer with
  | idle =>
      have hdut : s.dut.step g.size .callPop = some { s.dut with consumer := .loadTail } := by
        simp only [Spsc.step, hpc]
      refine nearer_of_access .callPop hlive hpop hdut rfl (rank_lt_of_consumer rfl rfl ?_)
      simp only [hpop, hpc, consumerRank, popRank]
      split <;> omega
  | loadTail =>
      have hdut : s.dut.step g.size .popStep = some (s.dut.popped g.size) := by
        simp only [Spsc.step, hpc]
      refine nearer_of_access .popStep hlive trivial hdut ?_ (rank_lt_of_consumer rfl hproducer ?_)
      · simp [answer, Spsc.popped, hpc, PopPc.step]
      · simp only [hpop, hpc, Spsc.popped, PopPc.step, consumerRank, popRank]
        split <;> omega
  | loadHead tail =>
      have hok := h.dut.consumerOk
      rw [hpc] at hok
      have hload : s.dut.head.load s.dut.headView s.dut.head.latest = some s.dut.head.current :=
        Location.load_latest (h.dut.headLatest ▸ h.dut.headView_le)
      have hdut : s.dut.step g.size (.popLoadHead s.dut.head.latest) =
          some { s.dut with
            headView := s.dut.head.latest
            consumer := .emptyTest tail s.dut.head.current } := by
        simp only [Spsc.step, hpc, hload, Option.map_some, PopPc.step]
      refine nearer_of_access (.popLoadHead _) hlive trivial hdut rfl
        (rank_lt_of_consumer rfl rfl ?_)
      simp only [hpop, hpc, consumerRank, popRank]
      rcases hdata with hmore | hlast
      · obtain ⟨q, hq, hrep⟩ := h.dut.queue
        have hne : s.dut.head.current ≠ tail := by
          rw [hok]
          refine mt hrep.empty_iff.mp ?_
          rintro rfl
          rw [hq, List.append_nil] at hmore
          exact Nat.lt_irrefl _ hmore
        rw [if_neg hne]
        split <;> omega
      · rw [if_pos (decide_eq_true hlast)]
        split <;> omega
  | emptyTest tail hd =>
      have hdut : s.dut.step g.size .popStep = some (s.dut.popped g.size) := by
        simp only [Spsc.step, hpc]
      by_cases hempty : hd = tail
      · have hanswer : answer s.dut (s.dut.popped g.size) .popStep = some (.popReturns none) := by
          simp [answer, Spsc.popped, hpc, PopPc.step, hempty, PopPc.returns]
        have hmoved : s.harness.moved n draw (.popReturns none) =
            some { s.harness with consumer := .loopTest } := by
          simp only [Harness.moved, hpop]
        refine nearer_of_return .popStep (.popReturns none) hlive trivial hdut hanswer hmoved
          (Harness.not_aborted (by simp)) (rank_lt_of_consumer rfl hproducer ?_)
        simp only [hpop, hpc, consumerRank, popRank, if_pos hempty, Harness.passed]
        omega
      · refine nearer_of_access .popStep hlive trivial hdut ?_
          (rank_lt_of_consumer rfl hproducer ?_)
        · simp [answer, Spsc.popped, hpc, PopPc.step, hempty]
        · simp only [hpop, hpc, Spsc.popped, PopPc.step, consumerRank, popRank, if_neg hempty]
          omega
  | slotRead tail =>
      have hdut : s.dut.step g.size .popStep = some (s.dut.popped g.size) := by
        simp only [Spsc.step, hpc]
      refine nearer_of_access .popStep hlive trivial hdut ?_ (rank_lt_of_consumer rfl hproducer ?_)
      · simp [answer, Spsc.popped, hpc, PopPc.step]
      · simp only [hpop, hpc, Spsc.popped, PopPc.step, consumerRank, popRank]
        omega
  | storeTail tail d =>
      have hdut : s.dut.step g.size .popStep = some (s.dut.popped g.size) := by
        simp only [Spsc.step, hpc]
      have hanswer : answer s.dut (s.dut.popped g.size) .popStep = some (.popReturns (some d)) := by
        simp [answer, Spsc.popped, hpc, PopPc.step, PopPc.returns]
      have hmoved : s.harness.moved n draw (.popReturns (some d)) =
          some { s.harness with
            consumer := .verifyTransfer d, received := s.harness.received ++ [d] } := by
        simp only [Harness.moved, hpop]
      refine nearer_of_return .popStep (.popReturns (some d)) hlive trivial hdut hanswer hmoved
        (Harness.not_aborted (by simp)) (rank_lt_of_consumer rfl hproducer ?_)
      simp only [hpop, hpc, consumerRank, popRank, Harness.passed]
      omega

/-- The consumer can go on where there is something to pop, or where the
producer has ended; it does not stand in the window when the producer does
not. -/
theorem nearer_of_consumer (h : Inv g n draw s) (hlive : ¬s.harness.Aborted)
    (hwindow : ∀ i, s.harness.producer ≠ .refPush i)
    (hdata : s.dut.released.length < s.dut.accepted.length ∨ s.harness.producer = .stopped)
    (hgoal : ¬Succeeded s) : Nearer g.size n draw s := by
  have hrec := h.harness.received hlive
  have haccepted := congrArg List.length h.accepted
  rw [length_sent] at haccepted
  have hleft : s.harness.consumer.pending = [] →
      s.dut.released.length < s.dut.accepted.length ∨ n ≤ s.harness.passed := by
    intro hpending
    rcases hdata with hmore | hstopped
    · exact .inl hmore
    · rw [hstopped, ProducerPc.pushed] at haccepted
      rw [h.released, hrec, hpending, List.append_nil, length_sent, haccepted]
      exact Nat.lt_or_ge _ _
  have hidle (hnot : s.harness.consumer ≠ .pop) : s.dut.consumer = .idle := by
    by_contra hne
    exact hnot (h.popping hne)
  cases hpc : s.harness.consumer with
  | aborted failed => exact absurd ⟨failed, hpc⟩ hlive
  | pop => exact nearer_of_popping h hlive hpc (hleft (by rw [hpc]; rfl))
  | loopTest =>
      have hpassed : s.harness.passed = s.harness.poppedCount := by
        simp only [Harness.passed, hpc]
      have hmoved : s.harness.moved n draw .loopTest = some { s.harness with
          consumer := if !s.harness.producerDone || s.harness.poppedCount < n then .pop
            else .stopped } := by
        simp only [Harness.moved, hpc]
      by_cases hgo : (!s.harness.producerDone || s.harness.poppedCount < n) = true
      · rw [if_pos hgo] at hmoved
        have hmore : s.harness.poppedCount < n := by
          rcases hdata with hmore | hstopped
          · have hle := h.harness.within.pushed_le
            rw [h.released, hrec, hpc, haccepted, ConsumerPc.pending, List.append_nil, length_sent,
              hpassed] at hmore
            · omega
            · simp
          · simpa [h.harness.done.mpr hstopped] using hgo
        refine nearer_of_harness .loopTest (by simp) (by simp) hlive hmoved
          (Harness.not_aborted (by simp)) (rank_lt_of_consumer rfl rfl ?_)
        have hbegin : consumerRank n s.harness.poppedCount .idle .pop =
            10 * (n - s.harness.poppedCount) + 7 := by
          rw [consumerRank, decide_eq_false (Nat.not_le.mpr hmore)]
          rfl
        rw [hpc, hpassed, hidle (by simp [hpc])]
        exact Nat.lt_of_le_of_lt (Nat.le_of_eq hbegin) (Nat.lt_succ_self _)
      · rw [if_neg hgo] at hmoved
        refine nearer_of_harness .loopTest (by simp) (by simp) hlive hmoved
          (Harness.not_aborted (by simp)) (rank_lt_of_consumer rfl rfl ?_)
        simp only [hpc, consumerRank]
        omega
  | verifyTransfer outDut =>
      have hmoved : s.harness.moved n draw .verifyTransfer = some (s.harness.verified outDut) := by
        simp only [Harness.moved, hpc]
      rcases s.harness.verified_cases outDut with
        ⟨rest, href, hverified⟩ | ⟨hnot, -⟩
      · obtain ⟨hlt, -⟩ := h.harness.verify_passed hpc href
        have hle := h.harness.within.referenced_le
        rw [hverified] at hmoved
        refine nearer_of_harness .verifyTransfer (by simp) (by simp) hlive hmoved
          (Harness.not_aborted (by simp)) (rank_lt_of_consumer rfl rfl ?_)
        simp only [Harness.passed, hpc] at hlt
        simp only [hpc, consumerRank, Harness.passed]
        omega
      · obtain ⟨-, i, hi, -⟩ := h.window hpc hnot
        exact absurd hi (hwindow i)
  | count =>
      have hmoved : s.harness.moved n draw .countPop = some { s.harness with
          poppedCount := s.harness.poppedCount + 1, consumer := .loopTest } := by
        simp only [Harness.moved, hpc]
      refine nearer_of_harness .countPop (by simp) (by simp) hlive hmoved
        (Harness.not_aborted (by simp)) (rank_lt_of_consumer rfl rfl ?_)
      simp only [hpc, consumerRank, Harness.passed]
      omega
  | stopped =>
      obtain ⟨hdone, -⟩ := h.harness.finished hpc
      exact absurd ⟨h.harness.done.mp hdone, hpc⟩ hgoal

/-- As long as no assertion has failed, some step brings the end nearer: the
producer's while the ring has room, else the consumer's. -/
theorem nearer (h : Inv g n draw s) (hlive : ¬s.harness.Aborted) (hgoal : ¬Succeeded s) :
    Nearer g.size n draw s := by
  cases hpc : s.harness.producer with
  | refPush i | count i | setDone =>
      exact nearer_of_produced h hlive (by simp [hpc]) (by simp [hpc])
  | stopped => exact nearer_of_consumer h hlive (by simp [hpc]) (.inr hpc) hgoal
  | push i =>
      obtain ⟨q, hq, hrep⟩ := h.dut.queue
      have hperiod := hrep.room
      by_cases hroom : q.length + 1 < g.period
      · exact nearer_of_room h hlive hpc hrep hroom
      · have htwo := g.two_le_period
        refine nearer_of_consumer h hlive (by simp [hpc]) (.inl ?_) hgoal
        rw [hq, List.length_append]
        omega

end

/-- **The test never gets stuck**: on a ring of two slots or more, from every
state of the test in which no assertion has failed, some schedule ends it with
its success.  (A ring of one slot accepts nothing.) -/
theorem can_always_succeed {g : RingGeometry} {n : Nat} {draw : Nat → UInt64}
    {slots : Nat → PorthDescriptor} {s : Fuzz}
    (h : (Fuzz.system g.size n draw slots).Reachable s) (hlive : ¬s.harness.Aborted) :
    ∃ as t, (Fuzz.system g.size n draw slots).Run s as t ∧ Succeeded t := by
  refine exists_run_of_rank (I := fun s => Inv g n draw s ∧ ¬s.harness.Aborted)
    (rank g.size n) ?_ ⟨Inv.of_reachable h, hlive⟩
  rintro s ⟨hinv, hlive⟩ hgoal
  obtain ⟨a, t, hstep, hnext, hlt⟩ := nearer hinv hlive hgoal
  exact ⟨a, t, hstep, ⟨hinv.step hstep, hnext⟩, hlt⟩

/-- Also from the state in which the next comparison would fail. -/
theorem can_always_succeed_race :
    ∃ s : Fuzz, s.harness.producer = .refPush 0 ∧
      s.harness.consumer = .verifyTransfer { addr := 5, len := 0 } ∧
      ∃ as t, (Fuzz.system RingGeometry.default1024.size 1000000 (fun _ => 5)
        fun _ => default).Run s as t ∧ Succeeded t := by
  obtain ⟨s, hexec, hs⟩ := exec_of_any
    (Fuzz.step RingGeometry.default1024.size 1000000 fun _ => 5) (start 1000000 fun _ => default)
    race
    (fun s => s.harness.producer = .refPush 0 ∧
      s.harness.consumer = .verifyTransfer { addr := 5, len := 0 }) (by decide +kernel)
  obtain ⟨hproducer, hconsumer⟩ := of_decide_eq_true hs
  have hreach : (Fuzz.system RingGeometry.default1024.size 1000000 (fun _ => 5)
      fun _ => default).Reachable s := reachable_of_exec rfl hexec
  exact ⟨s, hproducer, hconsumer,
    can_always_succeed hreach (Harness.not_aborted (by simp [hconsumer]))⟩

end PorthCore.Ports.FuzzProgress
