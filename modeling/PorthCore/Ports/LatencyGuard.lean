import Mathlib.Data.Rat.Floor
import PorthCore.Verified.Dictionary

/-!
# The latency gate

`check_latencies` reads a benchmark report and exits with 1 unless two numbers
are within their limits.  They come from a dictionary of the aggregate entries
that is keyed by the aggregate's name alone; where it has no median, the first
entry of the report stands in for it.  `MAX_STDEV_NS` is not used.

`checkBenchmarks_eq_ok_iff` says when the gate lets a report pass, in terms of
the entries.  Whatever it does not compare it overlooks: `gate_sound_iff` says when
that matters.  Times are rationals.  What is printed is left out.
-/

namespace PorthCore.Ports.LatencyGuard

open PorthCore.Verified.Dictionary

/-! ## The script -/

/-- `MAX_MEDIAN_NS`. -/
def maxMedianNs : ℚ := 50

/-- `MAX_P99_NS`. -/
def maxP99Ns : ℚ := 200

/-- `MAX_STDEV_NS`. -/
def maxStdevNs : ℚ := 15

/-- An entry of the report's `benchmarks`. -/
structure Entry where
  name : String
  aggregateName : Option String
  realTime : Option ℚ
  deriving DecidableEq, Repr

/-- What the script finds under the name it is given: no file, a file without a
brace, one whose rest from the first brace on is not JSON, or a report with or
without a list of benchmarks. -/
inductive ReportFile
  | missing
  | noJson
  | unparsable
  | report (benchmarks : Option (List Entry))

/-- Why the script exits with 1. -/
inductive Failure
  | fileNotFound
  | noJson
  | parseError
  | noEntries
  | regression (median tail : Bool)
  deriving DecidableEq, Repr

/-- `b["real_time"]`; the `KeyError` ends in the handler around the script. -/
def Entry.time (b : Entry) : Except Failure ℚ :=
  match b.realTime with
  | some t => .ok t
  | none => .error .parseError

/-- The pairs of the comprehension that builds `stats`. -/
def aggregates : List Entry → Except Failure (List (String × ℚ))
  | [] => .ok []
  | b :: bs =>
      match b.aggregateName with
      | none => aggregates bs
      | some k => do
          let t ← b.time
          let rest ← aggregates bs
          return (k, t) :: rest

/-- The two comparisons. -/
def compareLimits (median p99 : ℚ) : Except Failure Unit :=
  if maxMedianNs < median ∨ maxP99Ns < p99 then
    .error (.regression (maxMedianNs < median) (maxP99Ns < p99))
  else .ok ()

/-- `check_latencies` on the list of benchmarks. -/
def checkBenchmarks (benchmarks : List Entry) : Except Failure Unit :=
  match benchmarks with
  | [] => .error .noEntries
  | first :: _ => do
      let stats := ofPairs (← aggregates benchmarks)
      let firstTime ← first.time
      let median := (stats.lookup "median").getD firstTime
      let p99 := (stats.lookup "p99").getD median
      compareLimits median p99

/-- `check_latencies`. -/
def checkLatencies : ReportFile → Except Failure Unit
  | .missing => .error .fileNotFound
  | .noJson => .error .noJson
  | .unparsable => .error .parseError
  | .report benchmarks => checkBenchmarks (benchmarks.getD [])

/-! ## What the limits are for -/

/-- The report has an aggregate of the benchmark this entry measures.  Its name
is the benchmark's followed by that of the aggregate. -/
def hasAggregates (benchmarks : List Entry) (b : Entry) : Bool :=
  benchmarks.any fun c => c.aggregateName.any fun k => c.name == b.name ++ "_" ++ k

/-- The limit of an aggregate. -/
def aggregateLimit (k : String) : Option ℚ :=
  if k = "median" then some maxMedianNs
  else if k = "p99" then some maxP99Ns
  else if k = "stddev" then some maxStdevNs
  else none

/-- The limit an entry is held to, if any: a benchmark without aggregates
stands for its own median. -/
def limit (benchmarks : List Entry) (b : Entry) : Option ℚ :=
  match b.aggregateName with
  | some k => aggregateLimit k
  | none => if hasAggregates benchmarks b then none else some maxMedianNs

/-- Every entry is within its limit. -/
def Within (benchmarks : List Entry) : Prop :=
  ∀ b ∈ benchmarks, ∀ t l, b.realTime = some t → limit benchmarks b = some l → t ≤ l

/-! ## What the gate looks at -/

/-- The aggregate's name and time of an entry that has both. -/
def Entry.pair (b : Entry) : Option (String × ℚ) :=
  match b.aggregateName, b.realTime with
  | some k, some t => some (k, t)
  | _, _ => none

/-- The times of the entries with this aggregate name, in order. -/
def times (k : String) (benchmarks : List Entry) : List ℚ :=
  valuesOf k (benchmarks.filterMap Entry.pair)

/-- The time of the last median entry, or of the first entry where there is
none. -/
def medianOf (benchmarks : List Entry) : Option ℚ :=
  (times "median" benchmarks).getLast?.or (benchmarks.head?.bind Entry.realTime)

/-- The time of the last p99 entry. -/
def p99Of (benchmarks : List Entry) : Option ℚ := (times "p99" benchmarks).getLast?

/-- A time the gate reads is missing or beyond its limit. -/
inductive Stopped (benchmarks : List Entry) : Prop
  | unreadable (b : Entry) (hmem : b ∈ benchmarks)
      (hread : b.aggregateName ≠ none ∨ benchmarks.head? = some b) (hnone : b.realTime = none)
  | median (t : ℚ) (htime : medianOf benchmarks = some t) (hlimit : maxMedianNs < t)
  | p99 (t : ℚ) (htime : p99Of benchmarks = some t) (hlimit : maxP99Ns < t)

/-- The entry between `before` and `after` is compared with its limit: the last
median and the last p99 entry, and the first entry of a report without a
median. -/
def Compared (before : List Entry) (b : Entry) (after : List Entry) : Prop :=
  match b.aggregateName with
  | some k => (k = "median" ∨ k = "p99") ∧ ∀ c ∈ after, c.aggregateName ≠ some k
  | none => before = [] ∧ ∀ c ∈ after, c.aggregateName ≠ some "median"

/-- An entry that the gate does not compare is beyond its limit. -/
def Overlooked (benchmarks : List Entry) : Prop :=
  ∃ before b after, benchmarks = before ++ b :: after ∧ ¬Compared before b after ∧
    ∃ t l, b.realTime = some t ∧ limit benchmarks b = some l ∧ l < t

variable {benchmarks rest before after : List Entry} {b first : Entry} {k : String} {t : ℚ}

/-! ## When the gate lets a report pass -/

theorem aggregates_of_readable (h : ∀ b ∈ benchmarks, b.aggregateName ≠ none → b.realTime ≠ none) :
    aggregates benchmarks = .ok (benchmarks.filterMap Entry.pair) := by
  induction benchmarks with
  | nil => rfl
  | cons b bs ih =>
      obtain ⟨hb, hbs⟩ := List.forall_mem_cons.mp h
      rw [aggregates, ih hbs, List.filterMap_cons, Entry.pair, Entry.time]
      cases hname : b.aggregateName with
      | none => rfl
      | some k =>
          cases htime : b.realTime with
          | none => exact absurd htime (hb (by rw [hname]; exact Option.some_ne_none k))
          | some t => rfl

private theorem aggregates_of_unreadable (hmem : b ∈ benchmarks) (hname : b.aggregateName ≠ none)
    (hnone : b.realTime = none) : aggregates benchmarks = .error .parseError := by
  induction benchmarks with
  | nil => cases hmem
  | cons c bs ih =>
      rw [aggregates, Entry.time]
      rcases List.mem_cons.mp hmem with rfl | htail
      · rw [hnone]
        cases hb : b.aggregateName with
        | none => exact absurd hb hname
        | some k => rfl
      · rw [ih htail]
        cases c.aggregateName with
        | none => rfl
        | some k => cases c.realTime <;> rfl

private theorem compareLimits_eq_ok_iff {median p99 : ℚ} :
    compareLimits median p99 = .ok () ↔ median ≤ maxMedianNs ∧ p99 ≤ maxP99Ns := by
  rw [← not_lt, ← not_lt, ← not_or, compareLimits]
  split
  · next h => exact iff_of_false nofun (not_not_intro h)
  · next h => exact iff_of_true rfl h

/-- Where nothing it reads is missing, the gate compares the two numbers. -/
theorem checkBenchmarks_of_readable
    (h : ∀ b ∈ first :: rest, b.aggregateName ≠ none → b.realTime ≠ none)
    (hfirst : first.realTime = some t) :
    ∃ median, medianOf (first :: rest) = some median ∧
      checkBenchmarks (first :: rest) =
        compareLimits median ((p99Of (first :: rest)).getD median) := by
  refine ⟨(times "median" (first :: rest)).getLast?.getD t, ?_, ?_⟩
  · rw [medianOf, List.head?_cons, Option.bind_some, hfirst, Option.or_some]
  · rw [checkBenchmarks, aggregates_of_readable h, Entry.time, hfirst]
    show compareLimits _ _ = _
    rw [lookup_ofPairs, lookup_ofPairs]
    rfl

private theorem checkBenchmarks_of_unreadable (hmem : b ∈ benchmarks)
    (hread : b.aggregateName ≠ none ∨ benchmarks.head? = some b) (hnone : b.realTime = none) :
    checkBenchmarks benchmarks = .error .parseError := by
  cases benchmarks with
  | nil => cases hmem
  | cons first rest =>
      by_cases hall : ∀ c ∈ first :: rest, c.aggregateName ≠ none → c.realTime ≠ none
      · have hfirst : first.realTime = none := by
          rcases hread with hname | hhead
          · exact absurd hnone (hall b hmem hname)
          · obtain rfl := Option.some.inj hhead
            exact hnone
        rw [checkBenchmarks, aggregates_of_readable hall, Entry.time, hfirst]
        rfl
      · push Not at hall
        obtain ⟨c, hc, hname, htime⟩ := hall
        rw [checkBenchmarks, aggregates_of_unreadable hc hname htime]
        rfl

/-- **What the gate lets pass.** -/
theorem checkBenchmarks_eq_ok_iff :
    checkBenchmarks benchmarks = .ok () ↔ benchmarks ≠ [] ∧ ¬Stopped benchmarks := by
  cases benchmarks with
  | nil => exact iff_of_false nofun fun h => h.1 rfl
  | cons first rest =>
      by_cases hread : ∃ b ∈ first :: rest,
          (b.aggregateName ≠ none ∨ (first :: rest).head? = some b) ∧ b.realTime = none
      · obtain ⟨b, hmem, hname, hnone⟩ := hread
        rw [checkBenchmarks_of_unreadable hmem hname hnone]
        exact iff_of_false nofun fun h => h.2 (.unreadable b hmem hname hnone)
      · have hall : ∀ b ∈ first :: rest, b.aggregateName ≠ none → b.realTime ≠ none :=
          fun b hmem hname hnone => hread ⟨b, hmem, .inl hname, hnone⟩
        obtain ⟨t, hfirst⟩ : ∃ t, first.realTime = some t :=
          Option.ne_none_iff_exists'.mp fun hnone =>
            hread ⟨first, List.mem_cons_self, .inr rfl, hnone⟩
        obtain ⟨median, hmedian, hcheck⟩ := checkBenchmarks_of_readable hall hfirst
        rw [hcheck, compareLimits_eq_ok_iff]
        constructor
        · rintro ⟨hlow, htail⟩
          refine ⟨List.cons_ne_nil _ _, ?_⟩
          intro hstopped
          cases hstopped with
          | unreadable b hmem hname hnone => exact hread ⟨b, hmem, hname, hnone⟩
          | median u hu hlimit =>
              obtain rfl := Option.some.inj (hmedian.symm.trans hu)
              exact not_lt.mpr hlow hlimit
          | p99 u hu hlimit =>
              rw [hu] at htail
              exact not_lt.mpr htail hlimit
        · rintro ⟨-, hnot⟩
          have hlow : median ≤ maxMedianNs := not_lt.mp fun h => hnot (.median median hmedian h)
          refine ⟨hlow, ?_⟩
          cases htail : p99Of (first :: rest) with
          | none => exact hlow.trans (by decide +kernel : maxMedianNs ≤ maxP99Ns)
          | some u => exact not_lt.mp fun h => hnot (.p99 u htail h)

/-! ## What it overlooks -/

theorem Entry.pair_eq_some {p : String × ℚ} :
    b.pair = some p ↔ b.aggregateName = some p.1 ∧ b.realTime = some p.2 := by
  rw [Entry.pair]
  cases b.aggregateName <;> cases b.realTime <;> simp [Prod.ext_iff]

/-- No entry with an aggregate's name, no pair with it. -/
theorem forall_pair_ne (h : ∀ c ∈ benchmarks, c.aggregateName ≠ some k) :
    ∀ p ∈ benchmarks.filterMap Entry.pair, p.1 ≠ k := by
  rintro p hp rfl
  obtain ⟨c, hc, hpair⟩ := List.mem_filterMap.mp hp
  exact h c hc (Entry.pair_eq_some.mp hpair).1

/-- The times with an aggregate's name end with that of the last entry that has
it. -/
theorem getLast?_times (hname : b.aggregateName = some k) (htime : b.realTime = some t)
    (hlast : ∀ c ∈ after, c.aggregateName ≠ some k) :
    (times k (before ++ b :: after)).getLast? = some t := by
  have hpair : b.pair = some (k, t) := Entry.pair_eq_some.mpr ⟨hname, htime⟩
  rw [times, List.filterMap_append, List.filterMap_cons_some hpair]
  exact getLast?_valuesOf_append_cons (forall_pair_ne hlast)

/-- An entry that is compared with its limit and beyond it stops the gate. -/
theorem stopped_of_compared {l : ℚ} (hcompared : Compared before b after)
    (htime : b.realTime = some t) (hlimit : limit (before ++ b :: after) b = some l)
    (hlt : l < t) : Stopped (before ++ b :: after) := by
  unfold Compared at hcompared
  unfold limit at hlimit
  cases hname : b.aggregateName with
  | none =>
      rw [hname] at hcompared hlimit
      obtain ⟨rfl, hafter⟩ := hcompared
      obtain ⟨-, hmax⟩ := Option.ite_none_left_eq_some.mp hlimit
      obtain rfl := Option.some.inj hmax
      have hnone : times "median" (b :: after) = [] := by
        refine valuesOf_eq_nil (forall_pair_ne ?_)
        rw [List.forall_mem_cons, hname]
        exact ⟨nofun, hafter⟩
      refine .median t ?_ hlt
      rw [List.nil_append, medianOf, hnone, List.head?_cons, Option.bind_some, htime]
      rfl
  | some k =>
      rw [hname] at hcompared hlimit
      obtain ⟨rfl | rfl, hlast⟩ := hcompared
      · obtain rfl : maxMedianNs = l := Option.some.inj hlimit
        refine .median t ?_ hlt
        rw [medianOf, getLast?_times hname htime hlast, Option.some_or]
      · obtain rfl : maxP99Ns = l := Option.some.inj hlimit
        exact .p99 t (getLast?_times hname htime hlast) hlt

/-- **When the gate is sound.**  That a report passes means that every entry is
within its limit if and only if an entry beyond its limit that the gate does
not compare never comes without something that stops it. -/
theorem gate_sound_iff (benchmarks : List Entry) :
    (checkLatencies (.report (some benchmarks)) = .ok () → Within benchmarks) ↔
      (Overlooked benchmarks → Stopped benchmarks) := by
  show (checkBenchmarks benchmarks = .ok () → Within benchmarks) ↔ _
  rw [checkBenchmarks_eq_ok_iff]
  constructor
  · rintro hsound ⟨before, b, after, rfl, -, t, l, htime, hlimit, hlt⟩
    by_contra hnot
    have hne := List.append_ne_nil_of_right_ne_nil before (List.cons_ne_nil b after)
    have hwithin := hsound ⟨hne, hnot⟩
    exact not_lt.mpr (hwithin b List.mem_append_cons_self t l htime hlimit) hlt
  · rintro hcaught ⟨-, hnot⟩ b hmem t l htime hlimit
    by_contra hle
    obtain ⟨before, after, rfl⟩ := List.append_of_mem hmem
    by_cases hcompared : Compared before b after
    · exact hnot (stopped_of_compared hcompared htime hlimit (not_le.mp hle))
    · exact hnot (hcaught ⟨before, b, after, rfl, hcompared, t, l, htime, hlimit, not_le.mp hle⟩)

/-- One of the runs of `porth_perf_suite` and its aggregates, with a deviation of
30 ns. -/
def jittery : List Entry :=
  [ ⟨"bm_ring_buffer_latency/repeats:5", none, some 40⟩
  , ⟨"bm_ring_buffer_latency/repeats:5_mean", some "mean", some 45⟩
  , ⟨"bm_ring_buffer_latency/repeats:5_median", some "median", some 40⟩
  , ⟨"bm_ring_buffer_latency/repeats:5_stddev", some "stddev", some 30⟩ ]

theorem jittery_passes :
    checkLatencies (.report (some jittery)) = .ok () ∧ ¬Within jittery := by
  refine ⟨rfl, fun hwithin => ?_⟩
  have hstdev := hwithin ⟨"bm_ring_buffer_latency/repeats:5_stddev", some "stddev", some 30⟩
    (by decide) 30 maxStdevNs rfl rfl
  exact absurd hstdev (by decide +kernel)

end PorthCore.Ports.LatencyGuard
