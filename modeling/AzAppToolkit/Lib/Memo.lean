import AzAppToolkit.Lib.Table

set_option autoImplicit false

/-! # Memo tables

Answers kept in a table under a key of the question. The questions served one after the other all get
their own answers exactly when those that share a key share an answer. -/

namespace Memo

variable {α κ β : Type}

/-- Those that share a key share an answer. -/
def Coherent (key : α → Option κ) (f : α → β) (l : List α) : Prop :=
  ∀ a ∈ l, ∀ b ∈ l, ∀ k, key a = some k → key b = some k → f a = f b

variable {key : α → Option κ}

theorem coherent_cons {f : α → β} {a : α} {l : List α} :
    Coherent key f (a :: l) ↔
      (∀ b ∈ l, ∀ k, key a = some k → key b = some k → f a = f b) ∧ Coherent key f l := by
  constructor
  · intro h
    exact ⟨fun b hb k ha hk => h a (List.mem_cons_self ..) b (List.mem_cons_of_mem _ hb) k ha hk,
      fun b hb c hc => h b (List.mem_cons_of_mem _ hb) c (List.mem_cons_of_mem _ hc)⟩
  · rintro ⟨hhead, htail⟩ b hb c hc k hkb hkc
    rcases List.mem_cons.1 hb with rfl | hb'
    · rcases List.mem_cons.1 hc with rfl | hc'
      · rfl
      · exact hhead c hc' k hkb hkc
    · rcases List.mem_cons.1 hc with rfl | hc'
      · exact (hhead b hb' k hkc hkb).symm
      · exact htail b hb' c hc' k hkb hkc

variable [DecidableEq κ]

/-- Answer from the table, else by `f`, whose answer is kept. A question without a key is answered
    directly. -/
def serve (key : α → Option κ) (f : α → β) (a : α) (t : Table κ β) : β × Table κ β :=
  match key a with
  | none => (f a, t)
  | some k =>
    match t.lookup k with
    | some b => (b, t)
    | none => (f a, t.insert k (f a))

theorem serve_of_none {f : α → β} {a : α} (t : Table κ β)
    (hkey : key a = none) : serve key f a t = (f a, t) := by
  unfold serve
  rw [hkey]

theorem serve_hit {f : α → β} {a : α} {t : Table κ β} {k : κ} {b : β}
    (hkey : key a = some k) (hlookup : t.lookup k = some b) : serve key f a t = (b, t) := by
  unfold serve
  rw [hkey]
  simp only [hlookup]

theorem serve_miss {f : α → β} {a : α} {t : Table κ β} {k : κ}
    (hkey : key a = some k) (hlookup : t.lookup k = none) :
    serve key f a t = (f a, t.insert k (f a)) := by
  unfold serve
  rw [hkey]
  simp only [hlookup]

/-- Serve the questions in order. -/
def serveAll (key : α → Option κ) (f : α → β) : List α → Table κ β → List β × Table κ β
  | [], t => ([], t)
  | a :: rest, t =>
    let first := serve key f a t
    let others := serveAll key f rest first.2
    (first.1 :: others.1, others.2)

/-- What the table holds is the answer to each of the questions under that key. -/
def Answers (key : α → Option κ) (f : α → β) (t : Table κ β) (l : List α) : Prop :=
  ∀ a ∈ l, ∀ k v, key a = some k → t.lookup k = some v → v = f a

theorem answers_insert {f : α → β} {a : α} {k : κ} {t : Table κ β}
    {l : List α} (hkey : key a = some k) (hlookup : t.lookup k = none) :
    Answers key f (t.insert k (f a)) l ↔
      Answers key f t l ∧ ∀ b ∈ l, ∀ k', key a = some k' → key b = some k' → f a = f b := by
  unfold Answers
  constructor
  · intro h
    constructor
    · intro b hb k' v hk' hv
      apply h b hb k' v hk'
      rw [AList.lookup_insert_eq]
      by_cases heq : k' = k
      · subst heq
        rw [hlookup] at hv
        exact absurd hv (by simp)
      · rw [if_neg heq]
        exact hv
    · intro b hb k' ha hk'
      obtain rfl := Option.some.inj (hkey.symm.trans ha)
      apply h b hb k (f a) hk'
      rw [AList.lookup_insert_eq, if_pos rfl]
  · rintro ⟨hanswers, hsame⟩ b hb k' v hk' hv
    rw [AList.lookup_insert_eq] at hv
    by_cases heq : k' = k
    · subst heq
      rw [if_pos rfl] at hv
      rw [← Option.some.inj hv]
      exact hsame b hb k' hkey hk'
    · rw [if_neg heq] at hv
      exact hanswers b hb k' v hk' hv

/-- From any table: everyone gets their own answer when the table answers them and those that share a
    key share an answer, and only then. -/
theorem serveAll_eq_map (key : α → Option κ) (f : α → β) (l : List α) (t : Table κ β) :
    (serveAll key f l t).1 = l.map f ↔ Answers key f t l ∧ Coherent key f l := by
  induction l generalizing t with
  | nil =>
    constructor
    · intro _
      exact ⟨fun a ha => absurd ha (by simp), fun a ha => absurd ha (by simp)⟩
    · intro _
      rfl
  | cons a l ih =>
    have hcons : (serveAll key f (a :: l) t).1
        = (serve key f a t).1 :: (serveAll key f l (serve key f a t).2).1 := rfl
    have hanswers : Answers key f t (a :: l) ↔
        (∀ k v, key a = some k → t.lookup k = some v → v = f a) ∧ Answers key f t l :=
      List.forall_mem_cons
    rw [hcons, List.map_cons, List.cons.injEq, ih, hanswers, coherent_cons]
    rcases hkey : key a with _ | k
    · rw [serve_of_none t hkey]
      simp
    · rcases hlookup : t.lookup k with _ | b
      · rw [serve_miss hkey hlookup, answers_insert hkey hlookup, hkey]
        constructor
        · rintro ⟨-, ⟨hrest, hsame⟩, hcoherent⟩
          refine ⟨⟨?_, hrest⟩, hsame, hcoherent⟩
          intro k' v hk' hv
          obtain rfl := Option.some.inj hk'
          rw [hlookup] at hv
          exact absurd hv (by simp)
        · rintro ⟨⟨-, hrest⟩, hsame, hcoherent⟩
          exact ⟨rfl, ⟨hrest, hsame⟩, hcoherent⟩
      · rw [serve_hit hkey hlookup]
        constructor
        · rintro ⟨hb, hrest, hcoherent⟩
          refine ⟨⟨?_, hrest⟩, ?_, hcoherent⟩
          · intro k' v hk' hv
            obtain rfl := Option.some.inj hk'
            rw [hlookup] at hv
            rw [← Option.some.inj hv]
            exact hb
          · intro c hc k' hk' hkc
            obtain rfl := Option.some.inj hk'
            exact hb.symm.trans (hrest c hc k b hkc hlookup)
        · rintro ⟨⟨hhead, hrest⟩, -, hcoherent⟩
          exact ⟨hhead k b rfl hlookup, hrest, hcoherent⟩

/-- From the empty table. -/
theorem serveAll_empty_eq_map (key : α → Option κ) (f : α → β) (l : List α) :
    (serveAll key f l ∅).1 = l.map f ↔ Coherent key f l := by
  rw [serveAll_eq_map]
  constructor
  · exact fun h => h.2
  · intro h
    refine ⟨?_, h⟩
    intro a _ k v _ hv
    rw [AList.lookup_empty] at hv
    exact absurd hv (by simp)

end Memo
