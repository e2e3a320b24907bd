import AzAppToolkit.Audit.SecretLifetime
import AzAppToolkit.Lib.Separators

set_option autoImplicit false

/-! # When a lifetime is read exactly

What a duration denotes, in exact arithmetic, and when the reader agrees. Of its two operations on
amounts the product is checked and the sum is not: the reader is exact unless a sum of leading amounts
leaves the `i64` range before something else makes it give up. -/

namespace Audit

/-! ## What a duration denotes -/

/-- Amounts in decimal digits, each followed by a unit. -/
inductive Components : Text → List (Nat × Char) → Prop
  | nil : Components [] []
  | cons {digits rest : Text} {unit : Char} {pairs : List (Nat × Char)} : digits ≠ [] →
      (∀ c ∈ digits, c.isDigit = true) → unit.isDigit = false → Components rest pairs →
      Components (digits ++ unit :: rest) ((decimalValue digits, unit) :: pairs)

/-- The text, trimmed, is `P` and some components, with a time part after `T` or without. -/
def IsDuration (s : Text) (pairs : List (Nat × Char)) : Prop :=
  ∃ date tail, s.trim = 'P' :: (date ++ tail) ∧ 'T' ∉ date ∧
    (tail = [] ∨ ∃ time, tail = 'T' :: time) ∧ Components date pairs

def daysOf (q : Nat × Char) : Nat := if q.2 = 'W' then 7 * q.1 else q.1

def exactDays (pairs : List (Nat × Char)) : Nat := (pairs.map daysOf).sum

/-- The duration is weeks and days only, and these are `d` days, a positive `i64`. -/
def Denotes (s : Text) (d : Int) : Prop :=
  ∃ pairs, IsDuration s pairs ∧ (∀ q ∈ pairs, q.2 = 'W' ∨ q.2 = 'D') ∧ d = exactDays pairs ∧
    0 < d ∧ d ≤ i64Max

/-- In either build the reader returns what the text denotes. -/
def ReadExactly (s : Text) : Prop :=
  ∀ profile, ∃ r, isoDurationDays profile s = .ok r ∧ ∀ d, r = some d ↔ Denotes s d

/-- The amount is one the reader adds: days, or weeks whose product fits. -/
def Added (q : Nat × Char) : Prop := (q.2 = 'W' ∧ (7 * q.1 : Int) ≤ i64Max) ∨ q.2 = 'D'

/-- Every amount fits, and the leading ones add up to more than fits. -/
def Overflows (s : Text) : Prop :=
  ∃ pairs, IsDuration s pairs ∧ (∀ q ∈ pairs, (q.1 : Int) ≤ i64Max) ∧
    ∃ leading rest, pairs = leading ++ rest ∧ (∀ q ∈ leading, Added q) ∧
      i64Max < (exactDays leading : Int)

/-! ## Arithmetic -/

theorem wrapI64_eq_self {x : Int} (h : 0 ≤ x) : wrapI64 x = x ↔ x ≤ i64Max := by
  unfold wrapI64 i64Max
  omega

variable {profile : Profile}

theorem addI64_of_le {a b : Int} (h : 0 ≤ a + b) (hle : a + b ≤ i64Max) :
    addI64 profile a b = .ok (a + b) := by
  unfold addI64
  rw [if_pos ((wrapI64_eq_self h).2 hle)]

theorem addI64_overflow {a b : Int} (h : 0 ≤ a + b) (hlt : i64Max < a + b) :
    addI64 .debug a b = .error .overflow := by
  unfold addI64
  rw [if_neg]
  intro heq
  have := (wrapI64_eq_self h).1 heq
  omega

theorem checkedMul_week (n : Nat) :
    checkedMul n 7 = if (7 * n : Int) ≤ i64Max then some (7 * (n : Int)) else none := by
  unfold checkedMul
  have hnonneg : (0 : Int) ≤ n * 7 := by omega
  rw [Int.mul_comm (7 : Int) n]
  by_cases hle : (n : Int) * 7 ≤ i64Max
  · rw [if_pos hle, if_pos ((wrapI64_eq_self hnonneg).2 hle)]
  · rw [if_neg hle, if_neg (fun heq => hle ((wrapI64_eq_self hnonneg).1 heq))]

/-! ## Components -/

theorem components_digits {digits : Text} {pairs : List (Nat × Char)}
    (hdigits : ∀ c ∈ digits, c.isDigit = true) :
    Components digits pairs ↔ digits = [] ∧ pairs = [] := by
  constructor
  · intro h
    cases h with
    | nil => exact ⟨rfl, rfl⟩
    | cons _ _ hunit _ =>
      rw [hdigits _ (List.mem_append_right _ (List.mem_cons_self ..))] at hunit
      exact Bool.noConfusion hunit
  · rintro ⟨rfl, rfl⟩
    exact .nil

theorem components_unit {digits rest : Text} {unit : Char} {pairs : List (Nat × Char)}
    (hdigits : ∀ c ∈ digits, c.isDigit = true) (hunit : unit.isDigit = false) :
    Components (digits ++ unit :: rest) pairs ↔
      digits ≠ [] ∧ ∃ tail, pairs = (decimalValue digits, unit) :: tail ∧ Components rest tail := by
  constructor
  · intro h
    generalize htext : digits ++ unit :: rest = text at h
    cases h with
    | nil => exact absurd htext (by simp)
    | cons hne hdigits' hunit' hrest =>
      obtain ⟨rfl, rfl, rfl⟩ := Separators.split_inj hdigits hdigits'
        (Bool.eq_false_iff.1 hunit) (Bool.eq_false_iff.1 hunit') htext
      exact ⟨hne, _, rfl, hrest⟩
  · rintro ⟨hne, tail, rfl, hrest⟩
    exact .cons hne hdigits hunit hrest

theorem Components.unique {text : Text} {pairs pairs' : List (Nat × Char)}
    (h : Components text pairs) (h' : Components text pairs') : pairs = pairs' := by
  induction h generalizing pairs' with
  | nil => exact ((components_digits (by simp)).1 h').2.symm
  | cons hne hdigits hunit _ ih =>
    obtain ⟨-, tail, rfl, htail⟩ := (components_unit hdigits hunit).1 h'
    rw [ih htail]

theorem parseI64_eq_some {digits : Text} {n : Int} :
    parseI64 digits = some n ↔
      digits ≠ [] ∧ (decimalValue digits : Int) ≤ i64Max ∧ n = decimalValue digits := by
  unfold parseI64
  cases digits with
  | nil => simp
  | cons c rest =>
    simp only [List.isEmpty_cons, Bool.false_eq_true, if_false, ne_eq, reduceCtorEq,
      not_false_eq_true, true_and]
    by_cases hle : (decimalValue (c :: rest) : Int) ≤ i64Max
    · rw [if_pos hle, Option.some.injEq]
      exact ⟨fun h => ⟨hle, h.symm⟩, fun h => h.2.symm⟩
    · rw [if_neg hle]
      exact ⟨fun h => absurd h (by simp), fun h => absurd h.1 hle⟩

/-- A pair as the reader holds it. -/
def asI64 (q : Nat × Char) : Int × Char := (q.1, q.2)

/-- The first loop reads the components whose amounts fit. -/
theorem datePairs_eq_some (text : Text) {digits : Text} {read : List (Int × Char)}
    (hdigits : ∀ c ∈ digits, c.isDigit = true) :
    datePairs text digits = some read ↔
      ∃ pairs, Components (digits ++ text) pairs ∧ (∀ q ∈ pairs, (q.1 : Int) ≤ i64Max) ∧
        read = pairs.map asI64 := by
  induction text generalizing digits read with
  | nil =>
    unfold datePairs
    rw [List.append_nil]
    simp only [components_digits hdigits]
    cases digits with
    | nil =>
      simp only [List.isEmpty_nil, if_true, Option.some.injEq, true_and]
      constructor
      · rintro rfl
        exact ⟨[], rfl, by simp, rfl⟩
      · rintro ⟨pairs, rfl, -, rfl⟩
        rfl
    | cons c rest => simp
  | cons c rest ih =>
    unfold datePairs
    by_cases hc : c.isDigit = true
    · rw [if_pos hc, ih, List.append_assoc]
      · rfl
      · intro d hd
        rcases List.mem_append.1 hd with hd | hd
        · exact hdigits d hd
        · rw [List.mem_singleton.1 hd]
          exact hc
    · rw [if_neg hc]
      rw [Bool.not_eq_true] at hc
      simp only [components_unit hdigits hc, Option.bind_eq_bind, Option.bind_eq_some_iff,
        Option.pure_def, Option.some.injEq, parseI64_eq_some]
      constructor
      · rintro ⟨n, ⟨hne, hle, rfl⟩, tail, htail, rfl⟩
        obtain ⟨pairs, hcomponents, hfit, rfl⟩ := (ih (by simp)).1 htail
        refine ⟨_, ⟨hne, pairs, rfl, hcomponents⟩, ?_, rfl⟩
        intro q hq
        rcases List.mem_cons.1 hq with rfl | hq
        · exact hle
        · exact hfit q hq
      · rintro ⟨_, ⟨hne, pairs, rfl, hcomponents⟩, hfit, rfl⟩
        refine ⟨_, ⟨hne, hfit _ (List.mem_cons_self ..), rfl⟩, pairs.map asI64, ?_, rfl⟩
        exact (ih (by simp)).2
          ⟨pairs, hcomponents, fun q hq => hfit q (List.mem_cons_of_mem _ hq), rfl⟩

/-! ## Sums -/

theorem exactDays_cons (q : Nat × Char) (pairs : List (Nat × Char)) :
    exactDays (q :: pairs) = daysOf q + exactDays pairs := by
  unfold exactDays
  rw [List.map_cons, List.sum_cons]

variable {q : Nat × Char}

theorem addend_of_not_added (h : ¬ Added q) : addend q.1 q.2 = none := by
  unfold addend
  by_cases hcalendar : q.2 = 'Y' ∨ q.2 = 'M'
  · rw [if_pos hcalendar]
  · rw [if_neg hcalendar]
    by_cases hweek : q.2 = 'W'
    · rw [if_pos hweek, checkedMul_week, if_neg (fun hle => h (Or.inl ⟨hweek, hle⟩))]
    · rw [if_neg hweek, if_neg (fun hday => h (Or.inr hday))]

theorem addend_of_added (h : Added q) : addend q.1 q.2 = some ((daysOf q : Nat) : Int) := by
  unfold addend daysOf
  rcases h with ⟨hweek, hle⟩ | hday
  · have hcalendar : ¬ (q.2 = 'Y' ∨ q.2 = 'M') := by
      rw [hweek]
      decide
    rw [if_neg hcalendar, if_pos hweek, checkedMul_week, if_pos hle, if_pos hweek, Nat.cast_mul,
      Nat.cast_ofNat]
  · have hcalendar : ¬ (q.2 = 'Y' ∨ q.2 = 'M') := by
      rw [hday]
      decide
    have hweek : q.2 ≠ 'W' := by
      rw [hday]
      decide
    rw [if_neg hcalendar, if_neg hweek, if_pos hday, if_neg hweek]

/-- An amount that is not added ends the second loop without a result. -/
theorem sumDays_stop (h : ¬ Added q) (pairs : List (Int × Char)) (days : Int) :
    sumDays profile (asI64 q :: pairs) days = .ok none := by
  have hnone : addend (asI64 q).1 (asI64 q).2 = none := addend_of_not_added h
  unfold sumDays
  rw [hnone]

/-- An amount that is added goes through the unchecked sum. -/
theorem sumDays_added (h : Added q) (pairs : List (Int × Char)) (days : Int) :
    sumDays profile (asI64 q :: pairs) days
      = (addI64 profile days (daysOf q)).bind (fun total => sumDays profile pairs total) := by
  have hsome : addend (asI64 q).1 (asI64 q).2 = some ((daysOf q : Nat) : Int) := addend_of_added h
  conv_lhs => unfold sumDays
  rw [hsome]
  rfl

/-- While no sum leaves the range the second loop returns the exact sum, if every amount is added. -/
theorem sumDays_exact (profile : Profile) (pairs : List (Nat × Char)) (days : Nat)
    (hdays : (days : Int) ≤ i64Max)
    (hfit : ∀ leading rest, pairs = leading ++ rest → (∀ q ∈ leading, Added q) →
      ((days + exactDays leading : Nat) : Int) ≤ i64Max) :
    ∃ r, sumDays profile (pairs.map asI64) days = .ok r ∧
      ∀ d, r = some d ↔ (∀ q ∈ pairs, Added q) ∧ d = ((days + exactDays pairs : Nat) : Int) ∧
        0 < d := by
  induction pairs generalizing days with
  | nil =>
    refine ⟨_, rfl, fun d => ?_⟩
    simp only [exactDays, List.map_nil, List.sum_nil, Nat.add_zero, List.not_mem_nil,
      false_implies, implies_true, true_and]
    by_cases hpos : (0 : Int) < days
    · rw [if_pos hpos, Option.some.injEq]
      constructor
      · rintro rfl
        exact ⟨rfl, hpos⟩
      · rintro ⟨rfl, -⟩
        rfl
    · rw [if_neg hpos]
      constructor
      · intro h
        exact absurd h (by simp)
      · rintro ⟨rfl, hpos'⟩
        exact absurd hpos' hpos
  | cons q pairs ih =>
    rw [List.map_cons]
    by_cases hq : Added q
    · have hsum : ((days + daysOf q : Nat) : Int) ≤ i64Max := by
        have h := hfit [q] pairs rfl (by simpa using hq)
        simpa [exactDays] using h
      have hadd : addI64 profile days (daysOf q) = .ok ((days + daysOf q : Nat) : Int) := by
        rw [Nat.cast_add] at hsum ⊢
        exact addI64_of_le (by omega) hsum
      obtain ⟨r, hrun, hr⟩ := ih (days + daysOf q) hsum (by
        intro leading rest hsplit hadded
        have h := hfit (q :: leading) rest (by rw [hsplit]; rfl) (by
          intro q' hq'
          rcases List.mem_cons.1 hq' with rfl | hq'
          · exact hq
          · exact hadded q' hq')
        rw [exactDays_cons, ← Nat.add_assoc] at h
        exact h)
      refine ⟨r, ?_, fun d => ?_⟩
      · rw [sumDays_added hq, hadd]
        exact hrun
      · rw [hr d, exactDays_cons, ← Nat.add_assoc, List.forall_mem_cons]
        simp only [hq, true_and]
    · refine ⟨none, sumDays_stop hq _ _, fun d => ?_⟩
      constructor
      · intro h
        exact absurd h (by simp)
      · rintro ⟨hadded, -⟩
        exact absurd (hadded q (List.mem_cons_self ..)) hq

/-- A sum that leaves the range panics where overflow is checked. -/
theorem sumDays_overflow (leading rest : List (Nat × Char)) (days : Nat)
    (hdays : (days : Int) ≤ i64Max) (hadded : ∀ q ∈ leading, Added q)
    (hlt : i64Max < ((days + exactDays leading : Nat) : Int)) :
    sumDays .debug ((leading ++ rest).map asI64) days = .error .overflow := by
  induction leading generalizing days with
  | nil =>
    simp only [exactDays, List.map_nil, List.sum_nil, Nat.add_zero] at hlt
    omega
  | cons q leading ih =>
    rw [List.cons_append, List.map_cons, sumDays_added (hadded q (List.mem_cons_self ..))]
    by_cases hle : ((days + daysOf q : Nat) : Int) ≤ i64Max
    · have hadd : addI64 .debug days (daysOf q) = .ok ((days + daysOf q : Nat) : Int) := by
        rw [Nat.cast_add] at hle ⊢
        exact addI64_of_le (by omega) hle
      rw [exactDays_cons, ← Nat.add_assoc] at hlt
      rw [hadd]
      exact ih (days + daysOf q) hle (fun q' hq' => hadded q' (List.mem_cons_of_mem _ hq')) hlt
    · rw [addI64_overflow (by omega) (by rw [Nat.cast_add] at hle; omega)]
      rfl

/-! ## The text -/

theorem datePart_append {date tail : Text} (hdate : 'T' ∉ date)
    (htail : tail = [] ∨ ∃ time, tail = 'T' :: time) : datePart (date ++ tail) = date := by
  unfold datePart
  induction date with
  | nil =>
    rcases htail with rfl | ⟨time, rfl⟩
    · rfl
    · simp [Text.breakOn, List.isPrefixOf]
  | cons c date ih =>
    rw [List.mem_cons, not_or] at hdate
    obtain ⟨hc, hdate⟩ := hdate
    have ih := ih hdate
    rw [List.cons_append]
    unfold Text.breakOn
    have hnot : (['T'].isPrefixOf (c :: (date ++ tail))) = false := by
      simp only [List.isPrefixOf, Bool.and_true, beq_eq_false_iff_ne]
      exact hc
    rw [hnot, if_neg Bool.false_ne_true]
    cases hbreak : Text.breakOn ['T'] (date ++ tail) with
    | none =>
      rw [hbreak] at ih
      simpa using ih
    | some parts =>
      rw [hbreak] at ih
      simpa using ih

theorem exists_datePart (rest : Text) : ∃ tail, rest = datePart rest ++ tail ∧
    'T' ∉ datePart rest ∧ (tail = [] ∨ ∃ time, tail = 'T' :: time) := by
  have hsplit : ∃ date tail, rest = date ++ tail ∧ 'T' ∉ date ∧
      (tail = [] ∨ ∃ time, tail = 'T' :: time) := by
    induction rest with
    | nil => exact ⟨[], [], rfl, by simp, Or.inl rfl⟩
    | cons c rest ih =>
      by_cases hc : c = 'T'
      · subst hc
        exact ⟨[], _, rfl, by simp, Or.inr ⟨rest, rfl⟩⟩
      · obtain ⟨date, tail, rfl, hdate, htail⟩ := ih
        refine ⟨c :: date, tail, rfl, ?_, htail⟩
        rw [List.mem_cons, not_or]
        exact ⟨fun h => hc h.symm, hdate⟩
  obtain ⟨date, tail, rfl, hdate, htail⟩ := hsplit
  rw [datePart_append hdate htail]
  exact ⟨tail, rfl, hdate, htail⟩

variable {s : Text}

theorem isDuration_iff {pairs : List (Nat × Char)} :
    IsDuration s pairs ↔ ∃ rest, s.trim = 'P' :: rest ∧ Components (datePart rest) pairs := by
  constructor
  · rintro ⟨date, tail, htrim, hdate, htail, hcomponents⟩
    refine ⟨date ++ tail, htrim, ?_⟩
    rw [datePart_append hdate htail]
    exact hcomponents
  · rintro ⟨rest, htrim, hcomponents⟩
    obtain ⟨tail, hrest, hdate, htail⟩ := exists_datePart rest
    refine ⟨datePart rest, tail, ?_, hdate, htail, hcomponents⟩
    rw [← hrest]
    exact htrim

theorem IsDuration.unique {pairs pairs' : List (Nat × Char)} (h : IsDuration s pairs)
    (h' : IsDuration s pairs') : pairs = pairs' := by
  obtain ⟨rest, htrim, hcomponents⟩ := isDuration_iff.1 h
  obtain ⟨rest', htrim', hcomponents'⟩ := isDuration_iff.1 h'
  rw [htrim] at htrim'
  obtain rfl := (List.cons.inj htrim').2
  exact hcomponents.unique hcomponents'

/-! ## The reader -/

theorem isoDurationDays_of_pairs {pairs : List (Nat × Char)}
    (h : IsDuration s pairs) (hfit : ∀ q ∈ pairs, (q.1 : Int) ≤ i64Max) :
    isoDurationDays profile s = sumDays profile (pairs.map asI64) 0 := by
  obtain ⟨rest, htrim, hcomponents⟩ := isDuration_iff.1 h
  have hread : datePairs (datePart rest) [] = some (pairs.map asI64) :=
    (datePairs_eq_some _ (by simp)).2 ⟨pairs, hcomponents, hfit, rfl⟩
  unfold isoDurationDays
  rw [htrim]
  simp only
  cases rest with
  | nil =>
    obtain ⟨-, rfl⟩ := (@components_digits [] pairs (by simp)).1 hcomponents
    rfl
  | cons c rest =>
    rw [if_neg (by simp), hread]

theorem isoDurationDays_none
    (h : ∀ pairs, IsDuration s pairs → ¬ ∀ q ∈ pairs, (q.1 : Int) ≤ i64Max) :
    isoDurationDays profile s = .ok none := by
  unfold isoDurationDays
  split
  · next rest htrim =>
    split
    · rfl
    · have hread : datePairs (datePart rest) [] = none := by
        rw [Option.eq_none_iff_forall_not_mem]
        intro read hread
        obtain ⟨pairs, hcomponents, hfit, -⟩ := (datePairs_eq_some _ (by simp)).1 hread
        exact h pairs (isDuration_iff.2 ⟨rest, htrim, hcomponents⟩) hfit
      rw [hread]
  · rfl

theorem daysOf_le_exactDays {pairs : List (Nat × Char)} (h : q ∈ pairs) : daysOf q ≤ exactDays pairs :=
  List.single_le_sum (fun _ _ => Nat.zero_le _) _ (List.mem_map.2 ⟨q, h, rfl⟩)

/-- What is denoted is added up in full. -/
theorem added_of_exactDays_le {pairs : List (Nat × Char)}
    (hunits : ∀ q ∈ pairs, q.2 = 'W' ∨ q.2 = 'D') (hle : (exactDays pairs : Int) ≤ i64Max) :
    ∀ q ∈ pairs, Added q ∧ (q.1 : Int) ≤ i64Max := by
  intro q hq
  have hdays := daysOf_le_exactDays hq
  unfold daysOf at hdays
  unfold Added
  rcases hunits q hq with hweek | hday
  · rw [if_pos hweek] at hdays
    exact ⟨Or.inl ⟨hweek, by omega⟩, by omega⟩
  · rw [if_neg (by rw [hday]; decide)] at hdays
    exact ⟨Or.inr hday, by omega⟩

theorem units_of_added (h : Added q) : q.2 = 'W' ∨ q.2 = 'D' := by
  rcases h with ⟨hweek, -⟩ | hday
  · exact Or.inl hweek
  · exact Or.inr hday

/-- Where overflow is checked, a result means that nothing overflowed. -/
theorem not_overflows_of_debug {r : Option Int} (h : isoDurationDays .debug s = .ok r) : ¬ Overflows s := by
  rintro ⟨pairs, hduration, hfit, leading, rest, rfl, hadded, hlt⟩
  have hpanic := sumDays_overflow leading rest 0 (by decide) hadded (by simpa using hlt)
  rw [isoDurationDays_of_pairs hduration hfit] at h
  exact absurd (hpanic.symm.trans h) (by simp)

/-- A duration is read exactly unless the leading amounts add up to more than fits. -/
theorem readExactly_iff (s : Text) : ReadExactly s ↔ ¬ Overflows s := by
  constructor
  · intro hexact
    obtain ⟨r, hrun, -⟩ := hexact .debug
    exact not_overflows_of_debug hrun
  · intro hclear profile
    by_cases hread : ∃ pairs, IsDuration s pairs ∧ ∀ q ∈ pairs, (q.1 : Int) ≤ i64Max
    · obtain ⟨pairs, hduration, hfit⟩ := hread
      obtain ⟨r, hrun, hr⟩ := sumDays_exact profile pairs 0 (by decide) (by
        intro leading rest hsplit hadded
        by_contra hlt
        rw [Nat.zero_add] at hlt
        exact hclear ⟨pairs, hduration, hfit, leading, rest, hsplit, hadded, by omega⟩)
      refine ⟨r, ?_, fun d => ?_⟩
      · rw [isoDurationDays_of_pairs hduration hfit]
        exact hrun
      · rw [hr d, Nat.zero_add]
        constructor
        · rintro ⟨hadded, rfl, hpos⟩
          refine ⟨pairs, hduration, fun q hq => units_of_added (hadded q hq), rfl, hpos, ?_⟩
          by_contra hlt
          exact hclear ⟨pairs, hduration, hfit, pairs, [], by simp, hadded, by omega⟩
        · rintro ⟨pairs', hduration', hunits, rfl, hpos, hle⟩
          obtain rfl := hduration.unique hduration'
          exact ⟨fun q hq => (added_of_exactDays_le hunits hle q hq).1, rfl, hpos⟩
    · refine ⟨none, isoDurationDays_none (fun pairs hduration hfit => hread ⟨pairs, hduration, hfit⟩),
        fun d => ?_⟩
      constructor
      · intro h
        exact absurd h (by simp)
      · rintro ⟨pairs, hduration, hunits, rfl, hpos, hle⟩
        exact absurd ⟨pairs, hduration, fun q hq => (added_of_exactDays_le hunits hle q hq).2⟩ hread

/-! ## Policies -/

theorem Denotes.unique {d d' : Int} (h : Denotes s d) (h' : Denotes s d') : d = d' := by
  obtain ⟨pairs, hduration, -, rfl, -, -⟩ := h
  obtain ⟨pairs', hduration', -, rfl, -, -⟩ := h'
  rw [hduration.unique hduration']

open Classical in
/-- The days the text denotes, if it denotes any. -/
noncomputable def trueDays (s : Text) : Option Int :=
  if h : ∃ d, Denotes s d then some h.choose else none

theorem trueDays_eq_some {d : Int} : trueDays s = some d ↔ Denotes s d := by
  unfold trueDays
  by_cases h : ∃ d, Denotes s d
  · rw [dif_pos h, Option.some.injEq]
    constructor
    · intro heq
      exact heq ▸ h.choose_spec
    · intro hd
      exact h.choose_spec.unique hd
  · rw [dif_neg h]
    constructor
    · intro heq
      exact absurd heq (by simp)
    · intro hd
      exact absurd ⟨d, hd⟩ h

theorem isoDurationDays_eq_trueDays (h : ¬ Overflows s) (profile : Profile) :
    isoDurationDays profile s = .ok (trueDays s) := by
  obtain ⟨r, hrun, hr⟩ := (readExactly_iff s).2 h profile
  rw [hrun]
  congr 1
  apply Option.ext
  intro d
  rw [hr d, trueDays_eq_some]

/-- Policies read with exact durations. -/
noncomputable def trueReader : Text → Except Panic (Option Int) := fun s => .ok (trueDays s)

/-- The lifetime of an enforced entry does not overflow. -/
def Fits (e : CredentialRestrictionConfiguration) : Prop :=
  e.enforced = true → ∀ text, e.maxLifetime = some text → ¬ Overflows text

/-- So it is for every entry that is reached: behind one of unknown cap none is read. -/
def ReachedFit (created : Option Timestamp) : List CredentialRestrictionConfiguration → Prop
  | [] => True
  | e :: entries => Fits e ∧ (entryCap trueReader created e ≠ .ok .unknown → ReachedFit created entries)

section Policies

variable {created : Option Timestamp}

theorem entryCap_exact (profile : Profile) {e : CredentialRestrictionConfiguration} (h : Fits e) :
    entryCap (isoDurationDays profile) created e = entryCap trueReader created e := by
  unfold entryCap
  cases henforced : e.enforced with
  | false => rfl
  | true =>
    cases hlifetime : e.maxLifetime with
    | none => rfl
    | some text =>
      have hread := isoDurationDays_eq_trueDays (h henforced text hlifetime) profile
      simp only [hread]
      rfl

theorem fits_of_debug {e : CredentialRestrictionConfiguration} {cap : EntryCap}
    (h : entryCap (isoDurationDays .debug) created e = .ok cap) : Fits e := by
  intro henforced text htext
  unfold entryCap at h
  rw [henforced, htext, Bool.not_true, if_neg Bool.false_ne_true] at h
  cases hread : isoDurationDays .debug text with
  | ok r => exact not_overflows_of_debug hread
  | error panic =>
    simp only [hread] at h
    cases h

theorem capsOf_exact (profile : Profile) {entries : List CredentialRestrictionConfiguration}
    (h : ReachedFit created entries) :
    capsOf (isoDurationDays profile) created entries = capsOf trueReader created entries := by
  induction entries with
  | nil => rfl
  | cons e entries ih =>
    obtain ⟨hentry, hrest⟩ := h
    unfold capsOf
    rw [entryCap_exact profile hentry]
    cases hcap : entryCap trueReader created e with
    | error panic => rfl
    | ok cap =>
      rw [hcap] at hrest
      cases cap with
      | unknown => rfl
      | irrelevant => exact ih (hrest nofun)
      | cap days =>
        have hrest := ih (hrest nofun)
        simp only [hrest]

theorem reachedFit_of_debug {entries : List CredentialRestrictionConfiguration} {caps : Option (List Int)}
    (h : capsOf (isoDurationDays .debug) created entries = .ok caps) : ReachedFit created entries := by
  induction entries generalizing caps with
  | nil => trivial
  | cons e entries ih =>
    unfold capsOf at h
    cases hcap : entryCap (isoDurationDays .debug) created e with
    | error panic =>
      rw [hcap] at h
      cases h
    | ok cap =>
      rw [hcap] at h
      refine ⟨fits_of_debug hcap, fun hknown => ?_⟩
      rw [← entryCap_exact .debug (fits_of_debug hcap), hcap] at hknown
      cases cap with
      | unknown => exact absurd rfl hknown
      | irrelevant => exact ih h
      | cap days =>
        cases hrest : capsOf (isoDurationDays .debug) created entries with
        | ok rest => exact ih hrest
        | error panic =>
          simp only [hrest] at h
          cases h

theorem capsOf_trueReader (entries : List CredentialRestrictionConfiguration) :
    ∃ caps, capsOf trueReader created entries = .ok caps := by
  induction entries with
  | nil => exact ⟨_, rfl⟩
  | cons e entries ih =>
    obtain ⟨rest, hrest⟩ := ih
    have hentry : ∃ cap, entryCap trueReader created e = .ok cap := by
      unfold entryCap trueReader
      cases e.enforced <;> cases e.maxLifetime <;> try exact ⟨_, rfl⟩
      next text =>
        cases htrue : trueDays text <;> cases e.restrictForAppsCreatedAfterDateTime <;> cases created <;>
          exact ⟨_, by simp only [htrue]; rfl⟩
    obtain ⟨cap, hcap⟩ := hentry
    unfold capsOf
    rw [hcap]
    cases cap with
    | unknown => exact ⟨_, rfl⟩
    | irrelevant => exact ⟨rest, hrest⟩
    | cap days =>
      refine ⟨rest.map (days :: ·), ?_⟩
      simp only [hrest]
      rfl

/-- The cap of the entries is their true one, in either build, if and only if those reached fit. -/
theorem minCap_exact_iff (created : Option Timestamp) (entries : List CredentialRestrictionConfiguration) :
    (∀ profile, minCap (isoDurationDays profile) entries created = minCap trueReader entries created) ↔
      ReachedFit created entries := by
  constructor
  · intro hexact
    obtain ⟨caps, hcaps⟩ := @capsOf_trueReader created entries
    have hdebug := hexact .debug
    unfold minCap at hdebug
    rw [hcaps] at hdebug
    cases hrun : capsOf (isoDurationDays .debug) created entries with
    | ok caps' => exact reachedFit_of_debug hrun
    | error panic =>
      rw [hrun] at hdebug
      cases hdebug
  · intro hfit profile
    unfold minCap
    rw [capsOf_exact profile hfit]

end Policies

/-- The entries of the policy that applies, the application's own or else the tenant's; none, where it is
    disabled. -/
def appliedEntries (custom : Option AppManagementPolicy)
    (default : Option TenantAppManagementPolicy) : List CredentialRestrictionConfiguration :=
  let entries := fun (enabled : Bool) (restrictions : Option AppManagementConfiguration) =>
    if enabled then (restrictions.map (·.passwordEntries)).getD [] else []
  match custom, default with
  | some c, _ => entries c.isEnabled c.restrictions
  | none, some d => entries d.isEnabled d.applicationRestrictions
  | none, none => []

theorem enforcedSecretMaxDays_eq (days : Text → Except Panic (Option Int)) (custom : Option AppManagementPolicy)
    (default : Option TenantAppManagementPolicy) (created : Option Timestamp) :
    enforcedSecretMaxDays days custom default created = minCap days (appliedEntries custom default) created := by
  unfold enforcedSecretMaxDays appliedEntries
  cases custom with
  | some c =>
    dsimp only
    cases c.isEnabled <;> cases c.restrictions <;> rfl
  | none =>
    cases default with
    | some d =>
      dsimp only
      cases d.isEnabled <;> cases d.applicationRestrictions <;> rfl
    | none => rfl

/-- A duration is read exactly unless its leading amounts add up to more than an `i64`; and entries, or a
    policy, report their true cap in either build unless a lifetime that is reached is such a one. -/
theorem secret_lifetime_exact (s : Text) :
    (ReadExactly s ↔ ¬ Overflows s) ∧
    (∀ created entries,
      (∀ profile, minCap (isoDurationDays profile) entries created = minCap trueReader entries created) ↔
        ReachedFit created entries) ∧
    (∀ custom default created,
      (∀ profile, enforcedSecretMaxDays (isoDurationDays profile) custom default created
        = enforcedSecretMaxDays trueReader custom default created) ↔
        ReachedFit created (appliedEntries custom default)) := by
  refine ⟨readExactly_iff s, minCap_exact_iff, fun custom default created => ?_⟩
  simp only [enforcedSecretMaxDays_eq]
  exact minCap_exact_iff created (appliedEntries custom default)

/-- An enforced entry of ninety days. -/
def ninetyDays : CredentialRestrictionConfiguration where
  restrictionType := some "passwordLifetime".toList
  state := some "enabled".toList
  maxLifetime := some "P90D".toList
  restrictForAppsCreatedAfterDateTime := none

/-- It is the tenant's cap, and the cap reported. -/
theorem secret_lifetime_exact_ninety_days : minCap trueReader [ninetyDays] none = .ok (some 90) := by
  have hfits : Fits ninetyDays := by
    intro _ text htext
    obtain rfl := Option.some.inj htext
    have hrun : isoDurationDays .debug "P90D".toList = .ok (some 90) := by decide
    exact not_overflows_of_debug hrun
  rw [← ((secret_lifetime_exact "P90D".toList).2.1 none [ninetyDays]).2 ⟨hfits, fun _ => trivial⟩ .release]
  decide

/-- The largest `i64` of days and one more: the sum panics with overflow checks. Without them, twice
    the largest and twelve more are a cap of ten days. -/
theorem secret_lifetime_overflows :
    (¬ ∀ s, ReadExactly s) ∧
      isoDurationDays .debug "P9223372036854775807D1D".toList = .error .overflow ∧
      isoDurationDays .release "P9223372036854775807D9223372036854775807D12D".toList
        = .ok (some 10) := by
  have hpanic : isoDurationDays .debug "P9223372036854775807D1D".toList = .error .overflow := by
    decide
  refine ⟨?_, hpanic, by decide +kernel⟩
  intro h
  obtain ⟨r, hrun, -⟩ := h "P9223372036854775807D1D".toList .debug
  exact absurd (hpanic.symm.trans hrun) (by simp)


end Audit
