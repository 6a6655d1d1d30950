import Eventual.Proofs.Joining
import Eventual.Session.Run
import Mathlib.Data.List.Induction
import Mathlib.Data.List.Nodup

/-!
# How a gathering fills

After any values have been put into the places of an empty gathering, it holds for each place the
one that was put there last, and counts the places that none has been put into
(`Gathering.having`).  With the value for the last of these all are given out, and after that the
gathering may not be used any more.  A join keeps to this: in every run it puts at most one value
into each place of its gathering (`Program.gathers_once`).
-/

namespace Eventual

namespace Gathering

variable {V : Type} {γ γ' : Gathering V} {n i j : Nat} {v : V} {vs : List V}
  {calls : List (Nat × V)}

/-! ## Values that are put in with a check -/

/-- Puts a value into a place, if there is such a place, and if the count can be lowered should the
place be empty. -/
def insert? (γ : Gathering V) (i : Nat) (v : V) : Option (Gathering V × Option (List V)) :=
  match γ.values[i]? with
  | none => none
  | some old => if old.isNone ∧ γ.remaining = 0 then none else some (γ.insert i v)

/-- Puts values into places one after the other, each with a check: the gathering afterwards, and
what was given out each time. -/
def insertEach? (γ : Gathering V) (calls : List (Nat × V)) :
    Option (Gathering V × List (Option (List V))) :=
  calls.foldlM (fun state c =>
    (state.1.insert? c.1 c.2).map fun r => (r.1, state.2 ++ [r.2])) (γ, [])

lemma insertEach?_concat {complete : Option (List V)} {answers : List (Option (List V))}
    (h : γ.insertEach? calls = some (γ', answers)) {γ'' : Gathering V}
    (h' : γ'.insert? i v = some (γ'', complete)) :
    γ.insertEach? (calls ++ [(i, v)]) = some (γ'', answers ++ [complete]) := by
  rw [insertEach?, List.foldlM_append]
  rw [insertEach?] at h
  simp [h, h']

lemma insert?_of_pos (hi : i < γ.values.length) (hpos : 0 < γ.remaining) :
    γ.insert? i v = some (γ.insert i v) := by
  rw [insert?, List.getElem?_eq_getElem hi]
  have hne : γ.remaining ≠ 0 := by omega
  simp [hne]

/-- When all values have been given out every place is empty, and the count is zero. -/
lemma drained_of_complete (h : γ.insert i v = (γ', some vs)) :
    γ'.remaining = 0 ∧ ∀ old ∈ γ'.values, old = none := by
  rcases hold : γ.values[i]? with _ | old
  · simp only [insert, hold] at h
    cases h
  · simp only [insert, hold] at h
    generalize (if old.isNone then γ.remaining - 1 else γ.remaining) = remaining at h
    split at h
    · cases h
    · rename_i hzero
      cases h
      constructor
      · show remaining = 0
        omega
      · intro old hmem
        obtain ⟨-, -, rfl⟩ := List.mem_map.mp hmem
        rfl

/-- Then no value may be put in any more. -/
lemma insert?_of_complete (h : γ.insert i v = (γ', some vs)) (j : Nat) (v' : V) :
    γ'.insert? j v' = none := by
  obtain ⟨hzero, hempty⟩ := drained_of_complete h
  rw [insert?]
  rcases hold : γ'.values[j]? with _ | old
  · rfl
  · rw [hempty old (List.mem_of_getElem? hold)]
    simp [hzero]

/-! ## What a gathering holds -/

/-- The value that was put into a place last. -/
def latest? (calls : List (Nat × V)) (i : Nat) : Option V := calls.reverse.lookup i

/-- The places, of the first `n`, that no value has been put into. -/
def missing (n : Nat) (calls : List (Nat × V)) : List Nat :=
  (List.range n).filter fun i => i ∉ calls.map Prod.fst

/-- A gathering of `n` places into which values have been put. -/
def having (n : Nat) (calls : List (Nat × V)) : Gathering V where
  values := (List.range n).map (latest? calls)
  remaining := (missing n calls).length

lemma latest?_concat (calls : List (Nat × V)) (i : Nat) (v : V) (j : Nat) :
    latest? (calls ++ [(i, v)]) j = if j = i then some v else latest? calls j := by
  rw [latest?, List.reverse_append, List.reverse_singleton, List.singleton_append,
    List.lookup_cons]
  by_cases hj : j = i
  · simp [hj]
  · have hbeq : (j == i) = false := by simpa using hj
    rw [hbeq, if_neg hj]
    rfl

lemma latest?_eq_none_iff : latest? calls i = none ↔ i ∉ calls.map Prod.fst := by
  induction calls using List.reverseRecOn with
  | nil => simp [latest?]
  | append_singleton calls c ih =>
    rw [latest?_concat]
    by_cases hi : i = c.1
    · simp [hi]
    · simp [hi, ih]

lemma mem_missing_iff : i ∈ missing n calls ↔ i < n ∧ i ∉ calls.map Prod.fst := by
  simp [missing]

lemma missing_ne_nil (hi : i < n) (h : i ∉ calls.map Prod.fst) : missing n calls ≠ [] :=
  List.ne_nil_of_mem (mem_missing_iff.mpr ⟨hi, h⟩)

/-- What is missing has been missing before. -/
lemma missing_ne_nil_of_append {later : List (Nat × V)} (h : missing n (calls ++ later) ≠ []) :
    missing n calls ≠ [] := by
  obtain ⟨i, hi⟩ := List.exists_mem_of_ne_nil _ h
  obtain ⟨hlt, hnot⟩ := mem_missing_iff.mp hi
  rw [List.map_append, List.mem_append, not_or] at hnot
  exact missing_ne_nil hlt hnot.1

lemma having_nil (n : Nat) : (having n [] : Gathering V) = empty n := by
  have hlatest : latest? ([] : List (Nat × V)) = fun _ => none := rfl
  simp [having, missing, empty, hlatest]

lemma tallied_having (n : Nat) (calls : List (Nat × V)) : (having n calls).Tallied := by
  rw [Tallied, having, missing, List.countP_map, ← List.countP_eq_length_filter]
  apply List.countP_congr
  intro i _
  rw [decide_eq_true_iff, Function.comp_apply, Option.isNone_iff_eq_none, latest?_eq_none_iff]

lemma none_mem_having_iff : none ∈ (having n calls).values ↔ missing n calls ≠ [] := by
  constructor
  · intro hnone
    obtain ⟨i, hi, hlatest⟩ := List.mem_map.mp hnone
    exact missing_ne_nil (List.mem_range.mp hi) (latest?_eq_none_iff.mp hlatest)
  · intro hne
    obtain ⟨i, hi⟩ := List.exists_mem_of_ne_nil _ hne
    obtain ⟨hlt, hnot⟩ := mem_missing_iff.mp hi
    exact List.mem_map.mpr ⟨i, List.mem_range.mpr hlt, latest?_eq_none_iff.mpr hnot⟩

lemma set_having (n : Nat) (calls : List (Nat × V)) (i : Nat) (v : V) :
    (having n calls).values.set i (some v) = (having n (calls ++ [(i, v)])).values := by
  apply List.ext_getElem (by simp [having])
  intro j hj hj'
  by_cases hij : i = j
  · subst hij
    simp [having, latest?_concat]
  · have hne : j ≠ i := Ne.symm hij
    simp [having, latest?_concat, List.getElem_set_ne hij, hne]

/-- **One more value is put in**: the gathering holds it too, as long as a place is missing, and
otherwise gives all values out. -/
lemma insert_having (hi : i < n) :
    (missing n (calls ++ [(i, v)]) ≠ [] →
      (having n calls).insert i v = (having n (calls ++ [(i, v)]), none)) ∧
    (missing n (calls ++ [(i, v)]) = [] → ∃ γ vs, (having n calls).insert i v = (γ, some vs) ∧
      vs.map some = (having n (calls ++ [(i, v)])).values) := by
  have htallied := tallied_having n calls
  have hlt : i < (having n calls).values.length := by simpa [having] using hi
  constructor
  · intro hmissing
    have hnone := none_mem_having_iff.mpr hmissing
    rw [← set_having] at hnone
    obtain ⟨γ, hinsert, hvalues, htallied'⟩ := htallied.insert_of_mem hlt hnone
    rw [set_having] at hvalues
    have hcount := tallied_having n (calls ++ [(i, v)])
    have hγ : γ = having n (calls ++ [(i, v)]) := by
      obtain ⟨values, remaining⟩ := γ
      rw [Tallied] at htallied' hcount
      simp only at hvalues htallied'
      subst hvalues
      rw [← hcount] at htallied'
      subst htallied'
      rfl
    rw [hinsert, hγ]
  · intro hcomplete
    have hnone : none ∉ (having n calls).values.set i (some v) := by
      rw [set_having, none_mem_having_iff]
      exact not_not_intro hcomplete
    obtain ⟨γ, vs, hinsert, hvs⟩ := htallied.insert_of_not_mem hlt hnone
    exact ⟨γ, vs, hinsert, by rw [← hvs, set_having]⟩

lemma insert?_having (hi : i < n) (h : missing n calls ≠ []) :
    (having n calls).insert? i v = some ((having n calls).insert i v) := by
  apply insert?_of_pos
  · simpa [having] using hi
  · exact List.length_pos_iff.mpr h

/-- As long as a place is missing nothing is given out. -/
lemma insertEach?_of_missing (places : ∀ c ∈ calls, c.1 < n) (h : missing n calls ≠ []) :
    (empty n).insertEach? calls = some (having n calls, List.replicate calls.length none) := by
  induction calls using List.reverseRecOn with
  | nil =>
    rw [having_nil]
    rfl
  | append_singleton calls c ih =>
    obtain ⟨i, v⟩ := c
    have hbefore := missing_ne_nil_of_append h
    have hi : i < n := places (i, v) (by simp)
    have hcalls := ih (fun c hc => places c (List.mem_append_left _ hc)) hbefore
    have hinsert := insert?_having (v := v) hi hbefore
    rw [(insert_having hi).1 h] at hinsert
    rw [insertEach?_concat hcalls hinsert, List.length_append, List.length_singleton,
      List.replicate_succ']

end Gathering

/-! ## The gathering of a join -/

variable {P : Payload}

namespace Program

/-- The values of `calls` are those that have been put into a gathering before moment `j`, at most
one into each of its `n` places, and the gathering is what an empty one becomes by them. -/
structure Inserted (prog : Program P) (g : GatheringId) (n j : Nat) (m : Machine P)
    (calls : List (Nat × P.Value)) : Prop where
  state : ∃ γ answers, m.world.gatherings[g.index]? = some γ ∧
    (Gathering.empty n).insertEach? calls = some (γ, answers)
  places : ∀ c ∈ calls, c.1 < n
  nodup : (calls.map Prod.fst).Nodup
  made : ∀ i v, (i, v) ∈ calls ↔ ∃ c < j, prog.At c fun m => m.Gathers g i v

variable {prog : Program P} {a j j' i i' n : Nat} {w : World P} {m m' : Machine P}
  {inputs : List PromiseId} {g : GatheringId} {k : PromiseId → Script P Unit}
  {rest : List (Activity P)} {v v' : P.Value} {γ : Gathering P.Value} {vs : List P.Value}
  {calls : List (Nat × P.Value)}

namespace Inserted

/-- As long as there is a place that no value has been put into, the gathering is known exactly. -/
lemma gathering_eq (h : prog.Inserted g n j m calls) (hi : i < n)
    (hnot : i ∉ calls.map Prod.fst) :
    m.world.gatherings[g.index]? = some (Gathering.having n calls) := by
  obtain ⟨γ, answers, hγ, hcalls⟩ := h.state
  have hmissing := Gathering.insertEach?_of_missing h.places (Gathering.missing_ne_nil hi hnot)
  rw [hcalls] at hmissing
  cases hmissing
  exact hγ

/-- Whatever was put into a place was put there at an earlier moment. -/
lemma exists_gathers (h : prog.Inserted g n j m calls) (hi : i ∈ calls.map Prod.fst) :
    ∃ v, ∃ c < j, prog.At c fun m => m.Gathers g i v := by
  obtain ⟨⟨i, v⟩, hc, rfl⟩ := List.mem_map.mp hi
  exact ⟨v, (h.made i v).mp hc⟩

/-- A step puts one more value into the gathering, or leaves it alone. -/
lemma step (h : prog.Inserted g n j m calls) (hm : prog.moment j = some m)
    (hm' : prog.moment (j + 1) = some m')
    (fresh : ∀ i v, m.Gathers g i v → i < n ∧ i ∉ calls.map Prod.fst) :
    ∃ calls', prog.Inserted g n (j + 1) m' calls' := by
  obtain ⟨γ, answers, hγ, hcalls⟩ := h.state
  rcases (step_of_moment hm hm').gathering hγ with
    ⟨i, v, k, rest, hstack, hγ', -⟩ | ⟨hno, hγ'⟩
  · obtain ⟨hi, hnot⟩ := fresh i v ⟨k, rest, hstack⟩
    have hknown := h.gathering_eq hi hnot
    cases hγ.symm.trans hknown
    have hinsert := Gathering.insert?_having (v := v) hi (Gathering.missing_ne_nil hi hnot)
    refine ⟨calls ++ [(i, v)], ?_, ?_, ?_, ?_⟩
    · exact ⟨_, _, hγ', Gathering.insertEach?_concat hcalls hinsert⟩
    · intro c hc
      rcases List.mem_append.mp hc with hc | hc
      · exact h.places c hc
      · rw [List.mem_singleton.mp hc]
        exact hi
    · rw [List.map_append, List.map_singleton, List.nodup_append_comm]
      exact List.nodup_cons.mpr ⟨hnot, h.nodup⟩
    · intro i' v'
      rw [List.mem_append, List.mem_singleton, h.made, before_succ_iff hm]
      apply or_congr_right
      constructor
      · intro heq
        cases heq
        exact ⟨k, rest, hstack⟩
      · rintro ⟨k', rest', hstack'⟩
        cases hstack.symm.trans hstack'
        rfl
  · refine ⟨calls, ⟨γ, answers, hγ', hcalls⟩, h.places, h.nodup, ?_⟩
    intro i' v'
    rw [h.made, before_succ_iff hm, or_iff_left (hno i' v')]

end Inserted

section

variable (composed : prog.main.Composed True)
  (ha : prog.moment a = some ⟨w, .script ((Script.join inputs).bind k) :: rest⟩)
  (hne : inputs ≠ []) (exist : ∀ p ∈ inputs, p.index < w.promises.size)
include composed ha hne exist

lemma place_lt_of_gathers (h : prog.At j fun m => m.Gathers ⟨w.gatherings.size⟩ i v) :
    i < inputs.length := by
  obtain ⟨m, hm, hgathers⟩ := h
  obtain ⟨-, hcollects⟩ := collects_of_join composed ha hne exist
  obtain ⟨l, -, hears⟩ := hears_of_gathers composed ha hne exist hm hgathers
  exact hcollects.lt_size_of_hears hears

/-- **A join puts at most one value into each place of its gathering.** -/
theorem gathers_once (h : prog.At j fun m => m.Gathers ⟨w.gatherings.size⟩ i v)
    (h' : prog.At j' fun m => m.Gathers ⟨w.gatherings.size⟩ i v') : j' = j := by
  obtain ⟨m, hm, hgathers⟩ := h
  obtain ⟨m', hm', hgathers'⟩ := h'
  obtain ⟨-, hcollects⟩ := collects_of_join composed ha hne exist
  obtain ⟨l, rfl, hears⟩ := hears_of_gathers composed ha hne exist hm hgathers
  obtain ⟨l', rfl, hears'⟩ := hears_of_gathers composed ha hne exist hm' hgathers'
  rw [hcollects.listens.hears_unique hears' hears]

/-- A value is put into a place that none has been put into before. -/
lemma fresh_of_gathers (h : prog.Inserted ⟨w.gatherings.size⟩ n j m calls)
    (hm : prog.moment j = some m) (hgathers : m.Gathers ⟨w.gatherings.size⟩ i v) :
    i ∉ calls.map Prod.fst := by
  intro hi
  obtain ⟨v', c, hcj, hat⟩ := h.exists_gathers hi
  have heq := gathers_once composed ha hne exist ⟨m, hm, hgathers⟩ hat
  omega

/-- The gathering of a join, from the moment at which it is made. -/
lemma inserted_of_join (hj : a + 2 ≤ j) (hm : prog.moment j = some m) :
    ∃ calls, prog.Inserted ⟨w.gatherings.size⟩ inputs.length j m calls := by
  induction j, hj using Nat.le_induction generalizing m with
  | base =>
    refine ⟨[], ?_, by simp, by simp, ?_⟩
    · obtain ⟨w₁, segment?, performed, -, -, -, unfilled⟩ := World.perform_create w
      rw [Script.join_bind_of_ne_nil hne] at ha
      have h₁ := moment_of_operate ha performed
      have performed₂ : w₁.perform (.openGathering inputs.length) =
          .answer ⟨w₁.gatherings.size⟩
            { w₁ with gatherings := w₁.gatherings.push (.empty inputs.length) } := rfl
      cases hm.symm.trans (moment_of_operate h₁ performed₂)
      refine ⟨.empty inputs.length, [], ?_, rfl⟩
      simp [unfilled.gatherings]
    · intro i v
      constructor
      · intro hmem
        cases hmem
      · rintro ⟨c, hc, m', hm', hgathers⟩
        have hreturned := returned_of_gathers composed ha hne exist hm' hgathers
        omega
  | succ j hj ih =>
    obtain ⟨m₁, h₁, -⟩ := moment_succ_eq_some_iff.mp hm
    obtain ⟨calls, h⟩ := ih h₁
    apply h.step h₁ hm
    intro i v hgathers
    exact ⟨place_lt_of_gathers composed ha hne exist ⟨m₁, h₁, hgathers⟩,
      fresh_of_gathers composed ha hne exist h h₁ hgathers⟩

/-- When all values have been given out, no value is put into the gathering any more. -/
lemma not_gathers_of_complete (hm : prog.moment j = some m)
    (hgathers : m.Gathers ⟨w.gatherings.size⟩ i v)
    (hγ : m.world.gatherings[w.gatherings.size]? = some γ) (complete : (γ.insert i v).2 = some vs)
    (hlt : j < j') : ¬ prog.At j' fun m => m.Gathers ⟨w.gatherings.size⟩ i' v' := by
  intro hlater
  have hj := returned_of_gathers composed ha hne exist hm hgathers
  obtain ⟨calls, h⟩ := inserted_of_join composed ha hne exist (by omega) hm
  have hi := place_lt_of_gathers composed ha hne exist ⟨m, hm, hgathers⟩
  have hnot := fresh_of_gathers composed ha hne exist h hm hgathers
  cases hγ.symm.trans (h.gathering_eq hi hnot)
  -- every place has been given a value by now
  have hmissing : Gathering.missing inputs.length (calls ++ [(i, v)]) = [] := by
    by_contra hmissing
    rw [(Gathering.insert_having hi).1 hmissing] at complete
    cases complete
  have hi' := place_lt_of_gathers composed ha hne exist hlater
  have hmem : i' ∈ (calls ++ [(i, v)]).map Prod.fst := by
    by_contra hfresh
    exact Gathering.missing_ne_nil hi' hfresh hmissing
  rw [List.map_append, List.mem_append, List.map_singleton, List.mem_singleton] at hmem
  rcases hmem with hmem | rfl
  · obtain ⟨u, c, hcj, hat⟩ := h.exists_gathers hmem
    have heq := gathers_once composed ha hne exist hat hlater
    omega
  · have heq := gathers_once composed ha hne exist ⟨m, hm, hgathers⟩ hlater
    omega

end

end Program

/-- **How a gathering fills.**  Values are put into the places of an empty gathering one after the
other, in any order and with repeats, as long as some place is missing.  Then the next one can be
put in as well: the place is there, and the count is lowered only if it is not zero.  Before and
after, the count is the number of places that no value has been put into.  Nothing is given out
before a value has been put into every place; then all values are, for each place the one that was
put there last, and no value may be put in any more.  In every run of a composed program a join puts
at most one value into each place of its gathering, and none after all values have been given out;
at every moment the gathering is what an empty one becomes by the values put in so far. -/
theorem gathering_fills :
    (∀ {V : Type} (n : Nat) (calls : List (Nat × V)) (i : Nat) (v : V),
      (∀ c ∈ calls, c.1 < n) → i < n → Gathering.missing n calls ≠ [] →
      ∃ γ, (Gathering.empty n).insertEach? calls = some (γ, List.replicate calls.length none) ∧
        γ.remaining = (Gathering.missing n calls).length ∧
        γ.insert? i v = some (γ.insert i v) ∧
        (Gathering.missing n (calls ++ [(i, v)]) ≠ [] → (γ.insert i v).2 = none ∧
          (γ.insert i v).1.remaining = (Gathering.missing n (calls ++ [(i, v)])).length) ∧
        (Gathering.missing n (calls ++ [(i, v)]) = [] → (γ.insert i v).1.remaining = 0 ∧
          (∃ vs, (γ.insert i v).2 = some vs ∧ vs.length = n ∧
            ∀ j < n, vs[j]? = Gathering.latest? (calls ++ [(i, v)]) j) ∧
          ∀ j v', (γ.insert i v).1.insert? j v' = none)) ∧
    ∀ (prog : Program P) (a : Nat) (w : World P) (inputs : List PromiseId)
        (k : PromiseId → Script P Unit) (rest : List (Activity P)), prog.main.Composed True →
      prog.moment a = some ⟨w, .script ((Script.join inputs).bind k) :: rest⟩ →
      inputs ≠ [] → (∀ p ∈ inputs, p.index < w.promises.size) →
      (∀ i v j, prog.At j (fun m => m.Gathers ⟨w.gatherings.size⟩ i v) → i < inputs.length ∧
        ∀ v' j', prog.At j' (fun m => m.Gathers ⟨w.gatherings.size⟩ i v') → j' = j) ∧
      (∀ j m, a + 2 ≤ j → prog.moment j = some m →
        ∃ calls, prog.Inserted ⟨w.gatherings.size⟩ inputs.length j m calls) ∧
      ∀ j m i v γ vs, prog.moment j = some m → m.Gathers ⟨w.gatherings.size⟩ i v →
        m.world.gatherings[w.gatherings.size]? = some γ → (γ.insert i v).2 = some vs →
        ∀ j' > j, ∀ i' v', ¬ prog.At j' fun m => m.Gathers ⟨w.gatherings.size⟩ i' v' := by
  constructor
  · intro V n calls i v places hi hmissing
    refine ⟨.having n calls, Gathering.insertEach?_of_missing places hmissing, rfl,
      Gathering.insert?_having hi hmissing, ?_, ?_⟩
    · intro hleft
      rw [(Gathering.insert_having hi).1 hleft]
      exact ⟨rfl, rfl⟩
    · intro hcomplete
      obtain ⟨γ, vs, hinsert, hvs⟩ := (Gathering.insert_having (v := v) hi).2 hcomplete
      rw [hinsert]
      refine ⟨(Gathering.drained_of_complete hinsert).1, ⟨vs, rfl, ?_, ?_⟩,
        Gathering.insert?_of_complete hinsert⟩
      · simpa [Gathering.having] using congrArg List.length hvs
      · intro j hj
        have hplace := congrArg (·[j]?) hvs
        obtain ⟨x, hx, hlatest⟩ : ∃ x, vs[j]? = some x ∧
            some x = Gathering.latest? (calls ++ [(i, v)]) j := by
          simpa [Gathering.having, hj] using hplace
        rw [hx, hlatest]
  · intro prog a w inputs k rest composed ha hne exist
    refine ⟨?_, ?_, ?_⟩
    · intro i v j h
      refine ⟨Program.place_lt_of_gathers composed ha hne exist h, ?_⟩
      intro v' j' h'
      exact Program.gathers_once composed ha hne exist h h'
    · intro j m hj hm
      exact Program.inserted_of_join composed ha hne exist hj hm
    · intro j m i v γ vs hm hgathers hγ hcomplete j' hlt i' v'
      exact Program.not_gathers_of_complete composed ha hne exist hm hgathers hγ hcomplete hlt

/-- A program that joins a promise with itself, and then fulfills it. -/
def joinedTwice : Program Session.Play where
  settings := .withoutTraces
  walks _ := []
  internal := []
  store := {}
  main := do
    let p ← Script.create
    let _ ← Script.join [p, p]
    discard (Script.fulfill p (.value .null))
    discard Script.runUntilIdle

lemma composed_joinedTwice : joinedTwice.main.Composed True := by
  refine .bind (.once trivial) fun p => ?_
  refine .bind (.join [p, p]) fun _ => ?_
  refine .bind (.bind (.once trivial) fun _ => .pure ()) fun _ => ?_
  exact .bind (.drive .idle fun n => .pure n) fun _ => .pure ()

/-- Two values for the second place of two, and then one for the first; and the gathering of
`joinedTwice`, which gets its values at two moments, and none after that. -/
theorem gathering_fills_joinedTwice :
    (∃ γ, (Gathering.empty 2).insertEach? [(1, "a"), (1, "b")] = some (γ, [none, none]) ∧
      γ.remaining = 1 ∧ (γ.insert 0 "c").2 = some ["c", "b"] ∧
      (γ.insert 0 "c").1.insert? 1 "d" = none) ∧
    joinedTwice.At 9 (fun m => m.Gathers ⟨0⟩ 0 (.value .null)) ∧
    joinedTwice.At 12 (fun m => m.Gathers ⟨0⟩ 1 (.value .null)) ∧
    (∀ v j, joinedTwice.At j (fun m => m.Gathers ⟨0⟩ 0 v) → j = 9) ∧
    ∀ j > 12, ∀ i v, ¬ joinedTwice.At j fun m => m.Gathers ⟨0⟩ i v := by
  obtain ⟨hfills, hjoins⟩ := gathering_fills (P := Session.Play)
  constructor
  · obtain ⟨γ, hcalls, hcount, -, -, hcomplete⟩ :=
      hfills 2 [(1, "a"), (1, "b")] 0 "c" (by decide) (by decide) (by decide)
    obtain ⟨-, ⟨vs, hvs, hlength, hlatest⟩, hrefused⟩ := hcomplete (by decide)
    refine ⟨γ, hcalls, hcount, ?_, hrefused 1 "d"⟩
    have hfirst := hlatest 0 (by decide)
    have hsecond := hlatest 1 (by decide)
    match vs, hlength with
    | [x, y], _ =>
      cases hfirst
      cases hsecond
      exact hvs
  · obtain ⟨w, k, rest, ha, hsize, hplaces⟩ : ∃ w k rest,
        joinedTwice.moment 1 = some ⟨w, .script ((Script.join [⟨0⟩, ⟨0⟩]).bind k) :: rest⟩ ∧
          w.promises.size = 1 ∧ w.gatherings.size = 0 := ⟨_, _, _, rfl, rfl, rfl⟩
    obtain ⟨honce, -, hlast⟩ := hjoins joinedTwice 1 w [⟨0⟩, ⟨0⟩] k rest composed_joinedTwice ha
      (by simp) (by simp [hsize])
    rw [hplaces] at honce hlast
    have hfirst : joinedTwice.At 9 fun m => m.Gathers ⟨0⟩ 0 (.value .null) :=
      ⟨_, rfl, _, _, rfl⟩
    obtain ⟨m, γ, hm, hgathers, hγ, hcomplete⟩ : ∃ m γ, joinedTwice.moment 12 = some m ∧
        m.Gathers ⟨0⟩ 1 (.value .null) ∧ m.world.gatherings[0]? = some γ ∧
          (γ.insert 1 (.value .null)).2 = some [.value .null, .value .null] :=
      ⟨_, _, rfl, ⟨_, _, rfl⟩, rfl, rfl⟩
    refine ⟨hfirst, ⟨m, hm, hgathers⟩, ?_, ?_⟩
    · intro v j h
      exact (honce 0 _ 9 hfirst).2 v j h
    · intro j hj i v
      exact hlast 12 m 1 _ γ _ hm hgathers hγ hcomplete j hj i v

end Eventual
