import Eventual.Proofs.Clock
import Eventual.Proofs.Twins

/-!
# Two parties in one world

The world of two parties holds what each of them has made when it is alone, and nothing else:
promises, buffers and retry loops under other numbers (`Array.Apart`), the tasks, the notes and the
captures of both woven into one list, each in its order (`Weave`).  If one of the parties does
something, in the shared world and alone, this stays so (`World.Shared.perform`), and nothing
changes for the other one.  A task goes to its place in the woven queue because that queue is in
order.
-/

namespace Eventual

/-! ## Woven lists -/

section

variable {α : Type*} {R₁ R₂ : α → α → Prop} {C : α → α → α → Prop} {l₁ l₂ l l₁' l₂' l' : List α}

/-- A list is made of two others, each in its order; some elements stand for one of each. -/
inductive Weave (R₁ R₂ : α → α → Prop) (C : α → α → α → Prop) :
    List α → List α → List α → Prop
  | nil : Weave R₁ R₂ C [] [] []
  /-- The next element comes from the first list. -/
  | left {a b : α} {l₁ l₂ l : List α} (related : R₁ a b) (rest : Weave R₁ R₂ C l₁ l₂ l) :
      Weave R₁ R₂ C (a :: l₁) l₂ (b :: l)
  /-- It comes from the second list. -/
  | right {a b : α} {l₁ l₂ l : List α} (related : R₂ a b) (rest : Weave R₁ R₂ C l₁ l₂ l) :
      Weave R₁ R₂ C l₁ (a :: l₂) (b :: l)
  /-- It comes from both. -/
  | both {a₁ a₂ b : α} {l₁ l₂ l : List α} (common : C a₁ a₂ b) (rest : Weave R₁ R₂ C l₁ l₂ l) :
      Weave R₁ R₂ C (a₁ :: l₁) (a₂ :: l₂) (b :: l)

namespace Weave

lemma swap {C' : α → α → α → Prop} (h : Weave R₁ R₂ C l₁ l₂ l)
    (hC : ∀ a₁ a₂ b, C a₁ a₂ b → C' a₂ a₁ b) : Weave R₂ R₁ C' l₂ l₁ l := by
  induction h with
  | nil => exact .nil
  | left related _ ih => exact .right related ih
  | right related _ ih => exact .left related ih
  | both common _ ih => exact .both (hC _ _ _ common) ih

lemma imp {R₁' R₂' : α → α → Prop} (h : Weave R₁ R₂ C l₁ l₂ l)
    (h₁ : ∀ a b, R₁ a b → R₁' a b) (h₂ : ∀ a b, R₂ a b → R₂' a b) :
    Weave R₁' R₂' C l₁ l₂ l := by
  induction h with
  | nil => exact .nil
  | left related _ ih => exact .left (h₁ _ _ related) ih
  | right related _ ih => exact .right (h₂ _ _ related) ih
  | both common _ ih => exact .both common ih

lemma append (h : Weave R₁ R₂ C l₁ l₂ l) (h' : Weave R₁ R₂ C l₁' l₂' l') :
    Weave R₁ R₂ C (l₁ ++ l₁') (l₂ ++ l₂') (l ++ l') := by
  induction h with
  | nil => exact h'
  | left related _ ih => exact .left related ih
  | right related _ ih => exact .right related ih
  | both common _ ih => exact .both common ih

/-- The first list gets longer. -/
lemma append_left (h : Weave R₁ R₂ C l₁ l₂ l) {a b : α} (hab : R₁ a b) :
    Weave R₁ R₂ C (l₁ ++ [a]) l₂ (l ++ [b]) := by
  have happend := h.append (.left hab .nil)
  rwa [List.append_nil] at happend

/-- What is in the first list is in the woven one. -/
lemma exists_mem_of_mem_left (h : Weave R₁ R₂ C l₁ l₂ l) (hC : ∀ a₁ a₂ b, ¬ C a₁ a₂ b) :
    ∀ a ∈ l₁, ∃ b ∈ l, R₁ a b := by
  induction h with
  | nil => exact fun a ha => nomatch ha
  | @left a b _ _ _ related _ ih =>
    intro x hx
    rcases List.mem_cons.mp hx with rfl | hx
    · exact ⟨b, .head _, related⟩
    · obtain ⟨y, hy, hxy⟩ := ih x hx
      exact ⟨y, .tail _ hy, hxy⟩
  | right _ _ ih =>
    intro x hx
    obtain ⟨y, hy, hxy⟩ := ih x hx
    exact ⟨y, .tail _ hy, hxy⟩
  | both common => exact absurd common (hC _ _ _)

end Weave

end

/-! ## Parts of arrays -/

namespace Array

variable {α : Type*} {R R₁ R₂ : α → α → Prop} {l l₁ l₂ : List Nat} {a a₁ a₂ b : Array α} {x y : α}
  {i n : Nat}

/-- The elements of an array are in another one as well, at places that are listed. -/
structure Embeds (R : α → α → Prop) (l : List Nat) (a b : Array α) : Prop where
  length_eq : l.length = a.size
  nodup : l.Nodup
  related : ∀ i n : Nat, l[i]? = some n → ∃ x y, a[i]? = some x ∧ b[n]? = some y ∧ R x y

namespace Embeds

lemma imp {R' : α → α → Prop} (h : Embeds R l a b) (hR : ∀ x y, R x y → R' x y) :
    Embeds R' l a b where
  length_eq := h.length_eq
  nodup := h.nodup
  related i n hi := by
    obtain ⟨x, y, hx, hy, hxy⟩ := h.related i n hi
    exact ⟨x, y, hx, hy, hR x y hxy⟩

lemma lt_size (h : Embeds R l a b) (hn : n ∈ l) : n < b.size := by
  obtain ⟨i, hi⟩ := List.getElem?_of_mem hn
  obtain ⟨-, y, -, hy, -⟩ := h.related i n hi
  exact (Array.getElem?_eq_some_iff.mp hy).1

lemma size_notMem (h : Embeds R l a b) : b.size ∉ l := fun hmem =>
  Nat.lt_irrefl _ (h.lt_size hmem)

lemma push (h : Embeds R l a b) (hxy : R x y) :
    Embeds R (l ++ [b.size]) (a.push x) (b.push y) where
  length_eq := by rw [List.length_append, h.length_eq, Array.size_push, List.length_singleton]
  nodup := by
    refine List.nodup_append.mpr ⟨h.nodup, List.nodup_singleton _, fun n hn m hm => ?_⟩
    rw [List.mem_singleton.mp hm]
    exact fun heq => h.size_notMem (heq ▸ hn)
  related i n hi := by
    rw [List.getElem?_append] at hi
    split at hi
    · rename_i hlt
      have hn := h.lt_size (List.mem_of_getElem? hi)
      rw [h.length_eq] at hlt
      rw [Array.getElem?_push, Array.getElem?_push, if_neg (Nat.ne_of_lt hlt),
        if_neg (Nat.ne_of_lt hn)]
      exact h.related i n hi
    · rename_i hge
      obtain ⟨hlt, rfl⟩ := List.getElem?_eq_some_iff.mp hi
      rw [List.length_singleton] at hlt
      have hi : i = a.size := by
        rw [h.length_eq] at hlt hge
        omega
      refine ⟨x, y, ?_, ?_, hxy⟩
      · rw [hi, Array.getElem?_push_size]
      · rw [List.getElem_singleton, Array.getElem?_push_size]

/-- What is added next is at the next place. -/
lemma getElem?_concat (h : Embeds R l a b) : (l ++ [b.size])[a.size]? = some b.size := by
  rw [← h.length_eq, List.getElem?_concat_length]

/-- Another element is added beside. -/
lemma push_other (h : Embeds R l a b) (y : α) : Embeds R l a (b.push y) where
  length_eq := h.length_eq
  nodup := h.nodup
  related i n hi := by
    rw [Array.getElem?_push, if_neg (Nat.ne_of_lt (h.lt_size (List.mem_of_getElem? hi)))]
    exact h.related i n hi

lemma set (h : Embeds R l a b) (hi : l[i]? = some n) (hxy : R x y) :
    Embeds R l (a.setIfInBounds i x) (b.setIfInBounds n y) where
  length_eq := by rw [Array.size_setIfInBounds, h.length_eq]
  nodup := h.nodup
  related j m hj := by
    have hn := h.lt_size (List.mem_of_getElem? hi)
    have hlt : i < a.size := h.length_eq ▸ (List.getElem?_eq_some_iff.mp hi).1
    by_cases hij : i = j
    · subst hij
      cases hi.symm.trans hj
      refine ⟨x, y, ?_, ?_, hxy⟩
      · rw [Array.getElem?_setIfInBounds, if_pos rfl, if_pos hlt]
      · rw [Array.getElem?_setIfInBounds, if_pos rfl, if_pos hn]
    · have hnm : n ≠ m := by
        rintro rfl
        exact hij ((List.getElem?_inj (List.getElem?_eq_some_iff.mp hi).1 h.nodup).mp
          (hi.trans hj.symm))
      rw [Array.getElem?_setIfInBounds, Array.getElem?_setIfInBounds, if_neg hij, if_neg hnm]
      exact h.related j m hj

/-- Another element is replaced. -/
lemma set_other (h : Embeds R l a b) (hn : n ∉ l) (y : α) :
    Embeds R l a (b.setIfInBounds n y) where
  length_eq := h.length_eq
  nodup := h.nodup
  related i m hi := by
    have hnm : n ≠ m := fun heq => hn (heq ▸ List.mem_of_getElem? hi)
    rw [Array.getElem?_setIfInBounds, if_neg hnm]
    exact h.related i m hi

end Embeds

/-- The elements of two arrays are in a third one, at different places. -/
structure Apart (R₁ R₂ : α → α → Prop) (l₁ l₂ : List Nat) (a₁ a₂ b : Array α) : Prop where
  left : Embeds R₁ l₁ a₁ b
  right : Embeds R₂ l₂ a₂ b
  disjoint : ∀ n ∈ l₁, n ∉ l₂

namespace Apart

lemma swap (h : Apart R₁ R₂ l₁ l₂ a₁ a₂ b) : Apart R₂ R₁ l₂ l₁ a₂ a₁ b :=
  ⟨h.right, h.left, fun n h₂ h₁ => h.disjoint n h₁ h₂⟩

lemma imp_left {R₁' : α → α → Prop} (h : Apart R₁ R₂ l₁ l₂ a₁ a₂ b)
    (hR : ∀ x y, R₁ x y → R₁' x y) : Apart R₁' R₂ l₁ l₂ a₁ a₂ b :=
  { h with left := h.left.imp hR }

lemma push_left (h : Apart R₁ R₂ l₁ l₂ a₁ a₂ b) (hxy : R₁ x y) :
    Apart R₁ R₂ (l₁ ++ [b.size]) l₂ (a₁.push x) a₂ (b.push y) where
  left := h.left.push hxy
  right := h.right.push_other y
  disjoint n hn := by
    rcases List.mem_append.mp hn with hn | hn
    · exact h.disjoint n hn
    · rw [List.mem_singleton.mp hn]
      exact h.right.size_notMem

lemma set_left (h : Apart R₁ R₂ l₁ l₂ a₁ a₂ b) (hi : l₁[i]? = some n) (hxy : R₁ x y) :
    Apart R₁ R₂ l₁ l₂ (a₁.setIfInBounds i x) a₂ (b.setIfInBounds n y) :=
  { h with
    left := h.left.set hi hxy
    right := h.right.set_other (h.disjoint n (List.mem_of_getElem? hi)) y }

end Apart

lemma modify_eq_setIfInBounds {f : α → α} (h : a[i]? = some x) :
    a.modify i f = a.setIfInBounds i (f x) := by
  ext j hj hj'
  · rw [Array.size_modify, Array.size_setIfInBounds]
  · obtain ⟨hi, rfl⟩ := Array.getElem?_eq_some_iff.mp h
    rw [Array.getElem_modify, Array.getElem_setIfInBounds]
    split
    · rename_i hij
      subst hij
      rfl
    · rfl

end Array

/-! ## What a party hands over -/

variable {P : Payload} {D : Sharing P} {ρ ρ' ρ₁ ρ₂ : Renaming}

/-- The same place in the order of registration, and observers that are twins. -/
structure Registration.Twin (D : Sharing P) (ρ : Renaming) (r r' : Registration P) : Prop where
  number_eq : r.number = r'.number
  observer : r.observer.Twin D ρ r'.observer

/-- Observers that are twins wait, or settlements are alike. -/
inductive Slot.Twin (D : Sharing P) (ρ : Renaming) : Slot P → Slot P → Prop
  | unresolved {rs rs' : List (Registration P)}
      (waiting : List.Forall₂ (Registration.Twin D ρ) rs rs') :
      Twin D ρ (.unresolved rs) (.unresolved rs')
  | settled {s s' : Settlement P.Value P.Error} (settlement : s.Alike (D.ours.segment ρ) s') :
      Twin D ρ (.settled s) (.settled s')

/-- A promise alone and in the shared run. -/
structure Promise.Twin (D : Sharing P) (ρ : Renaming) (a a' : Promise P) : Prop where
  segment : D.ours.segment ρ a.segment? a'.segment?
  observed_eq : a.observed = a'.observed
  slot : a.slot.Twin D ρ a'.slot

/-- Scripts that are twins are run, or observers that are twins are told outcomes that are alike. -/
inductive Work.Twin (D : Sharing P) (ρ : Renaming) : Work P → Work P → Prop
  | script {s s' : Script P Unit}
      (task : ∀ ρ' c, ρ ≤ ρ' → s.Twins D Renaming.same ρ' c s') :
      Twin D ρ (.script s) (.script s')
  | delivery {p p' : PromiseId} {o o' : Outcome P.Value P.Error} {rs rs' : List (Registration P)}
      (promise : ρ.promise p p') (outcome : o.Alike (D.ours.segment ρ) o')
      (observers : List.Forall₂ (Registration.Twin D ρ) rs rs') :
      Twin D ρ (.delivery p o rs) (.delivery p' o' rs')

/-- A task for the same instant.  Its turn may be another one. -/
structure Task.Twin (D : Sharing P) (ρ : Renaming) (t t' : Task (Work P)) : Prop where
  due_eq : t.due = t'.due
  body : t.body.Twin D ρ t'.body

lemma Registration.Twin.mono {r r' : Registration P} (h : r.Twin D ρ r') (hle : ρ ≤ ρ') :
    r.Twin D ρ' r' :=
  ⟨h.number_eq, h.observer.mono hle⟩

lemma Slot.Twin.mono {s s' : Slot P} (h : s.Twin D ρ s') (hle : ρ ≤ ρ') : s.Twin D ρ' s' := by
  cases h with
  | unresolved waiting => exact .unresolved (waiting.imp fun _ _ hr => hr.mono hle)
  | settled settlement =>
    exact .settled (settlement.imp fun _ _ hs => D.ours.segment_mono hs hle)

lemma Promise.Twin.mono {a a' : Promise P} (h : a.Twin D ρ a') (hle : ρ ≤ ρ') : a.Twin D ρ' a' :=
  ⟨D.ours.segment_mono h.segment hle, h.observed_eq, h.slot.mono hle⟩

lemma Promise.Twin.view {a a' : Promise P} (h : a.Twin D ρ a') :
    a.view.Alike (D.ours.segment ρ) a'.view := by
  obtain ⟨segment?, observed, slot⟩ := a
  obtain ⟨segment?', observed', slot'⟩ := a'
  obtain ⟨hsegment, -, hslot⟩ := h
  cases hslot with
  | unresolved => exact .unsettled _ _
  | settled settlement => exact .settled hsegment settlement

lemma Work.Twin.mono {work work' : Work P} (h : work.Twin D ρ work') (hle : ρ ≤ ρ') :
    work.Twin D ρ' work' := by
  cases h with
  | script task => exact .script fun ρ₁ c h => task ρ₁ c (Renaming.le_trans hle h)
  | delivery promise outcome observers =>
    exact .delivery (promise.mono hle) (outcome.imp fun _ _ hs => D.ours.segment_mono hs hle)
      (observers.imp fun _ _ hr => hr.mono hle)

lemma Task.Twin.mono {t t' : Task (Work P)} (h : t.Twin D ρ t') (hle : ρ ≤ ρ') : t.Twin D ρ' t' :=
  ⟨h.due_eq, h.body.mono hle⟩

/-! ## Woven queues -/

namespace Queue

lemma insertTask_of_forall_lt {β : Type*} {t : Task β} {us : List (Task β)}
    (h : ∀ u ∈ us, t.due < u.due) : insertTask t us = t :: us := by
  cases us with
  | nil => rfl
  | cons u us => rw [insertTask, if_pos (h u (.head us))]

/-- In a woven queue that is in order, a task goes to the same place among those of its party. -/
lemma weave_insertTask {t t' : Task (Work P)} {l₁ l₂ l : List (Task (Work P))}
    (h : Weave (Task.Twin D ρ₁) (Task.Twin D.swap ρ₂) (fun _ _ _ => False) l₁ l₂ l)
    (sorted : l.Pairwise Task.Precedes) (ht : t.Twin D ρ₁ t') :
    Weave (Task.Twin D ρ₁) (Task.Twin D.swap ρ₂) (fun _ _ _ => False) (insertTask t l₁) l₂
      (insertTask t' l) := by
  induction h with
  | nil => exact .left ht .nil
  | left related rest ih =>
    rw [insertTask, insertTask, ← ht.due_eq, ← related.due_eq]
    split
    · exact .left ht (.left related rest)
    · exact .left related (ih sorted.of_cons)
  | @right a b l₁ l₂ l related rest ih =>
    rw [insertTask]
    split
    · -- all that are behind are due later still
      rename_i hlt
      have hlater : ∀ u ∈ l₁, t.due < u.due := by
        intro u hu
        obtain ⟨v, hv, huv⟩ := rest.exists_mem_of_mem_left (fun _ _ _ h => h) u hu
        rw [ht.due_eq, huv.due_eq]
        exact Nat.lt_of_lt_of_le hlt (List.rel_of_pairwise_cons sorted hv).due_le
      rw [insertTask_of_forall_lt hlater]
      exact .left ht (.right related rest)
    · exact .right related (ih sorted.of_cons)
  | both common => exact common.elim

end Queue

/-! ## Shared worlds -/

/-- What a program wrote, in a line of the journal. -/
def Entry.note? {N : Type} : Entry N → Option N
  | event _ => none
  | note n => some n

namespace World

/-- What programs wrote. -/
def notes (w : World P) : List P.Note := w.journal.toList.filterMap Entry.note?

/-- The stack that is kept by a capture before which `n` were made. -/
def stack (w : World P) (n : Nat) : Segment :=
  ⟨.afterCaptures n, Collector.gather w.internal w.settings.maxFrames (w.walks n)⟩

/-- A world holds what two worlds hold in which one party is alone, ours and theirs: their things
are where `l₁` and `l₂` say, and are twins up to the renamings `ρ₁` and `ρ₂`. -/
structure Holds (D : Sharing P) (ρ₁ ρ₂ l₁ l₂ : Renaming) (w₁ w₂ w : World P) : Prop where
  settings_left : w₁.settings = w.settings
  settings_right : w₂.settings = w.settings
  /-- The stacks of one capture are alike. -/
  stacks_left : ∀ ρ i j, ρ.capture i j → D.ours.segment ρ (some (w₁.stack i)) (some (w.stack j))
  stacks_right : ∀ ρ i j, ρ.capture i j →
    D.theirs.segment ρ (some (w₂.stack i)) (some (w.stack j))
  captured_left : l₁.captures.length = w₁.captures
  captured_right : l₂.captures.length = w₂.captures
  /-- Every capture is one of ours or of theirs, each in its order. -/
  captures : Weave Eq Eq (fun _ _ _ => False) l₁.captures l₂.captures (List.range w.captures)
  queue : Weave (Task.Twin D ρ₁) (Task.Twin D.swap ρ₂) (fun _ _ _ => False) w₁.queue.waiting
    w₂.queue.waiting w.queue.waiting
  promises : Array.Apart (Promise.Twin D ρ₁) (Promise.Twin D.swap ρ₂) l₁.promises l₂.promises
    w₁.promises w₂.promises w.promises
  gatherings : Array.Apart Eq Eq l₁.gatherings l₂.gatherings w₁.gatherings w₂.gatherings
    w.gatherings
  pairings : Array.Apart Eq Eq l₁.pairings l₂.pairings w₁.pairings w₂.pairings w.pairings
  retries : Array.Apart (Retry.Twin D ρ₁) (Retry.Twin D.swap ρ₂) l₁.retries l₂.retries w₁.retries
    w₂.retries w.retries
  notes : Weave (D.ours.note ρ₁) (D.theirs.note ρ₂) D.common w₁.notes w₂.notes w.notes
  store : D.store ρ₁ ρ₂ w₁.store w₂.store w.store

/-- A world is what two worlds are together in which one party is alone: ours and theirs. -/
abbrev Shared (D : Sharing P) (ρ₁ ρ₂ : Renaming) (w₁ w₂ w : World P) : Prop :=
  Holds D ρ₁ ρ₂ ρ₁ ρ₂ w₁ w₂ w

/-- What is a twin now is one when more is made. -/
lemma Holds.mono {ρ₁' l₁ l₂ : Renaming} {w₁ w₂ w : World P} (h : Holds D ρ₁ ρ₂ l₁ l₂ w₁ w₂ w)
    (hle : ρ₁ ≤ ρ₁') : Holds D ρ₁' ρ₂ l₁ l₂ w₁ w₂ w :=
  { h with
    queue := h.queue.imp (fun _ _ ht => ht.mono hle) fun _ _ ht => ht
    promises := h.promises.imp_left fun _ _ ha => ha.mono hle
    retries := h.retries.imp_left fun _ _ ht => ht.mono hle
    notes := h.notes.imp (fun _ _ hn => D.ours.note_mono hn hle) fun _ _ hn => hn
    store := D.store_mono h.store hle (Renaming.le_refl _) }

variable {w₁ w₂ w w₁' w' : World P}

lemma notes_emit (w : World P) (e : Event) : (w.emit e).notes = w.notes := by
  simp [World.notes, emit, Entry.note?]

lemma notes_write (w : World P) (n : P.Note) :
    World.notes { w with journal := w.journal.push (.note n) } = w.notes ++ [n] := by
  simp [World.notes, Entry.note?]

lemma Shared.swap (h : Shared D ρ₁ ρ₂ w₁ w₂ w) : Shared D.swap ρ₂ ρ₁ w₂ w₁ w where
  settings_left := h.settings_right
  settings_right := h.settings_left
  stacks_left := h.stacks_right
  stacks_right := h.stacks_left
  captured_left := h.captured_right
  captured_right := h.captured_left
  captures := h.captures.swap fun _ _ _ h => h
  queue := h.queue.swap fun _ _ _ h => h
  promises := h.promises.swap
  gatherings := h.gatherings.swap
  pairings := h.pairings.swap
  retries := h.retries.swap
  notes := h.notes.swap fun _ _ _ h => h
  store := h.store

/-! ### Reading -/

variable {p p' : PromiseId}

lemma Shared.exists_promise (h : Shared D ρ₁ ρ₂ w₁ w₂ w) (hp : ρ₁.promise p p') :
    ∃ a a', w₁.promises[p.index]? = some a ∧ w.promises[p'.index]? = some a' ∧ a.Twin D ρ₁ a' :=
  h.promises.left.related _ _ hp

lemma Shared.view (h : Shared D ρ₁ ρ₂ w₁ w₂ w) (hp : ρ₁.promise p p') :
    (w₁.view p).Alike (D.ours.segment ρ₁) (w.view p') := by
  obtain ⟨a, a', ha, ha', haa'⟩ := h.exists_promise hp
  rw [World.view, World.view, ha, ha']
  exact haa'.view

/-! ### Changing -/

/-- A task of ours is added, in the shared world and alone. -/
lemma Shared.addTask (h : Shared D ρ₁ ρ₂ w₁ w₂ w) (hw : w.queue.Ordered) {due due' : Duration}
    (hdue : due = due') {work work' : Work P} (hwork : work.Twin D ρ₁ work') :
    Shared D ρ₁ ρ₂ { w₁ with queue := w₁.queue.add due work } w₂
      { w with queue := w.queue.add due' work' } :=
  { h with queue := Queue.weave_insertTask h.queue hw.sorted ⟨hdue, hwork⟩ }

lemma Shared.emit (h : Shared D ρ₁ ρ₂ w₁ w₂ w) (e e' : Event) :
    Shared D ρ₁ ρ₂ (w₁.emit e) w₂ (w.emit e') := by
  refine { h with notes := ?_ }
  rw [notes_emit, notes_emit]
  exact h.notes

lemma Shared.putPromise (h : Shared D ρ₁ ρ₂ w₁ w₂ w) (hp : ρ₁.promise p p') {a a' : Promise P}
    (ha : a.Twin D ρ₁ a') : Shared D ρ₁ ρ₂ (w₁.putPromise p a) w₂ (w.putPromise p' a') :=
  { h with promises := h.promises.set_left hp ha }

/-- Outcomes that are alike go out to observers that are twins. -/
lemma Shared.deliver (h : Shared D ρ₁ ρ₂ w₁ w₂ w) (hw : w.queue.Ordered)
    (hclock : w₁.clock = w.clock) (hp : ρ₁.promise p p') {o o' : Outcome P.Value P.Error}
    (ho : o.Alike (D.ours.segment ρ₁) o') {rs rs' : List (Registration P)}
    (hrs : List.Forall₂ (Registration.Twin D ρ₁) rs rs') :
    Shared D ρ₁ ρ₂ (w₁.deliver p o rs) w₂ (w.deliver p' o' rs') := by
  have hawaiting : List.Forall₂ (Registration.Twin D ρ₁) (rs.filter (·.observer.awaits o))
      (rs'.filter (·.observer.awaits o')) :=
    List.rel_filter (fun r r' hr => by
      simp [hr.observer.awaits ρ₁ o o' (Renaming.le_refl _) ho]) hrs
  unfold World.deliver
  generalize rs.filter (·.observer.awaits o) = awaiting at hawaiting ⊢
  generalize rs'.filter (·.observer.awaits o') = awaiting' at hawaiting ⊢
  cases hawaiting with
  | nil => exact h
  | @cons r r' rs rs' hr hrest =>
    have hemit := (h.emit (.delivering (r :: rs).length) (.delivering (r' :: rs').length)).emit
      (.scheduling .zero) (.scheduling .zero)
    exact hemit.addTask hw hclock (.delivery hp ho (.cons hr hrest))

lemma Shared.settle (h : Shared D ρ₁ ρ₂ w₁ w₂ w) (hw : w.queue.Ordered)
    (hclock : w₁.clock = w.clock) (hp : ρ₁.promise p p') {s s' : Settlement P.Value P.Error}
    (hs : s.Alike (D.ours.segment ρ₁) s') : (w₁.settle p s).1 = (w.settle p' s').1 ∧
      Shared D ρ₁ ρ₂ (w₁.settle p s).2 w₂ (w.settle p' s').2 := by
  obtain ⟨⟨segment?, observed, slot⟩, ⟨segment?', observed', slot'⟩, ha, ha', hsegment, hobserved,
    hslot⟩ := h.exists_promise hp
  cases hslot with
  | unresolved hwaiting =>
    rw [settle_unresolved ha, settle_unresolved ha']
    have hpromise : Promise.Twin D ρ₁ ⟨segment?, observed, .settled s⟩
        ⟨segment?', observed', .settled s'⟩ := ⟨hsegment, hobserved, .settled hs⟩
    exact ⟨rfl, (h.putPromise hp hpromise).deliver hw hclock hp (hs.outcome hsegment) hwaiting⟩
  | settled =>
    rw [settle_settled ha, settle_settled ha']
    exact ⟨rfl, h.emit _ _⟩

lemma Shared.observe (h : Shared D ρ₁ ρ₂ w₁ w₂ w) (hw : w.queue.Ordered)
    (hclock : w₁.clock = w.clock) (hp : ρ₁.promise p p') {ob ob' : Observer P}
    (hob : ob.Twin D ρ₁ ob') : Shared D ρ₁ ρ₂ (w₁.observe p ob) w₂ (w.observe p' ob') := by
  obtain ⟨⟨segment?, observed, slot⟩, ⟨segment?', observed', slot'⟩, ha, ha', hsegment, hobserved,
    hslot⟩ := h.exists_promise hp
  have hobserved' : observed + 1 = observed' + 1 := congrArg (· + 1) hobserved
  have hr : Registration.Twin D ρ₁ ⟨observed, ob⟩ ⟨observed', ob'⟩ := ⟨hobserved, hob⟩
  cases hslot with
  | unresolved hwaiting =>
    rw [observe_unresolved ha, observe_unresolved ha']
    exact h.putPromise hp ⟨hsegment, hobserved', .unresolved
      (List.rel_append hwaiting (.cons hr .nil))⟩
  | @settled s s' hsettled =>
    rw [observe_settled ha, observe_settled ha']
    have hpromise : Promise.Twin D ρ₁ ⟨segment?, observed + 1, .settled s⟩
        ⟨segment?', observed' + 1, .settled s'⟩ := ⟨hsegment, hobserved', .settled hsettled⟩
    exact (h.putPromise hp hpromise).deliver hw hclock hp (hsettled.outcome hsegment)
      (.cons hr .nil)

/-- What a capture keeps is the stack of its number, and it writes no note. -/
lemma capture_of_tracing (h : w.settings.captureTraces = true) :
    ∃ journal, w.capture =
      (some (w.stack w.captures), { w with captures := w.captures + 1, journal }) ∧
      World.notes { w with captures := w.captures + 1, journal } = w.notes := by
  unfold capture
  rw [if_pos h]
  dsimp only
  split
  · rename_i hempty
    refine ⟨_, Prod.ext ?_ rfl, notes_emit _ _⟩
    rw [stack, List.isEmpty_iff.mp hempty]
    rfl
  · exact ⟨w.journal, rfl, rfl⟩

/-! What is made, or captured, gets the next number in the shared world and the next one alone. -/

lemma Shared.capture (h : Shared D ρ₁ ρ₂ w₁ w₂ w) :
    ∃ ρ, ρ₁ ≤ ρ ∧ D.ours.segment ρ w₁.capture.1 w.capture.1 ∧
      Shared D ρ ρ₂ w₁.capture.2 w₂ w.capture.2 := by
  by_cases htracing : w.settings.captureTraces = true
  · have htracing₁ : w₁.settings.captureTraces = true := by rw [h.settings_left, htracing]
    obtain ⟨journal, hcapture, hnotes⟩ := capture_of_tracing htracing
    obtain ⟨journal₁, hcapture₁, hnotes₁⟩ := capture_of_tracing htracing₁
    rw [hcapture, hcapture₁]
    let ρ : Renaming := { ρ₁ with captures := ρ₁.captures ++ [w.captures] }
    have hle : ρ₁ ≤ ρ := { Renaming.le_refl ρ₁ with captures := List.prefix_append _ _ }
    have hnew : ρ.capture w₁.captures w.captures := by
      change (ρ₁.captures ++ [w.captures])[w₁.captures]? = some w.captures
      rw [← h.captured_left, List.getElem?_concat_length]
    refine ⟨ρ, hle, h.stacks_left ρ _ _ hnew,
      { h.mono hle with captured_left := ?_, captures := ?_, notes := ?_ }⟩
    · rw [List.length_append, h.captured_left, List.length_singleton]
    · rw [List.range_succ]
      exact h.captures.append_left rfl
    · rw [hnotes, hnotes₁]
      exact (h.mono hle).notes
  · have htracing₁ : ¬ w₁.settings.captureTraces = true := by rwa [h.settings_left]
    rw [World.capture, World.capture, if_neg htracing, if_neg htracing₁]
    exact ⟨ρ₁, Renaming.le_refl _, D.ours.segment_refl _ _, h⟩

lemma Shared.addPromise (h : Shared D ρ₁ ρ₂ w₁ w₂ w) {segment? segment?' : Option Segment}
    (hsegment : D.ours.segment ρ₁ segment? segment?') :
    let ρ : Renaming := { ρ₁ with promises := ρ₁.promises ++ [w.promises.size] }
    ρ₁ ≤ ρ ∧ ρ.promise (w₁.addPromise segment?).1 (w.addPromise segment?').1 ∧
      Shared D ρ ρ₂ (w₁.addPromise segment?).2 w₂ (w.addPromise segment?').2 := by
  intro ρ
  have hle : ρ₁ ≤ ρ := { Renaming.le_refl ρ₁ with promises := List.prefix_append _ _ }
  have hnew : Promise.Twin D ρ ⟨segment?, 0, .unresolved []⟩ ⟨segment?', 0, .unresolved []⟩ :=
    ⟨D.ours.segment_mono hsegment hle, rfl, .unresolved .nil⟩
  refine ⟨hle, ?_, { h.mono hle with promises := (h.mono hle).promises.push_left hnew }⟩
  exact h.promises.left.getElem?_concat

lemma Shared.openGathering (h : Shared D ρ₁ ρ₂ w₁ w₂ w) (n : Nat) :
    let ρ : Renaming := { ρ₁ with gatherings := ρ₁.gatherings ++ [w.gatherings.size] }
    ρ₁ ≤ ρ ∧ ρ.gathering ⟨w₁.gatherings.size⟩ ⟨w.gatherings.size⟩ ∧
      Shared D ρ ρ₂ { w₁ with gatherings := w₁.gatherings.push (.empty n) } w₂
        { w with gatherings := w.gatherings.push (.empty n) } := by
  intro ρ
  have hle : ρ₁ ≤ ρ := { Renaming.le_refl ρ₁ with gatherings := List.prefix_append _ _ }
  exact ⟨hle, h.gatherings.left.getElem?_concat,
    { h.mono hle with gatherings := h.gatherings.push_left rfl }⟩

lemma Shared.openPairing (h : Shared D ρ₁ ρ₂ w₁ w₂ w) :
    let ρ : Renaming := { ρ₁ with pairings := ρ₁.pairings ++ [w.pairings.size] }
    ρ₁ ≤ ρ ∧ ρ.pairing ⟨w₁.pairings.size⟩ ⟨w.pairings.size⟩ ∧
      Shared D ρ ρ₂ { w₁ with pairings := w₁.pairings.push {} } w₂
        { w with pairings := w.pairings.push {} } := by
  intro ρ
  have hle : ρ₁ ≤ ρ := { Renaming.le_refl ρ₁ with pairings := List.prefix_append _ _ }
  exact ⟨hle, h.pairings.left.getElem?_concat,
    { h.mono hle with pairings := h.pairings.push_left rfl }⟩

lemma Shared.openRetry (h : Shared D ρ₁ ρ₂ w₁ w₂ w) {t t' : Retry P} (ht : t.Twin D ρ₁ t') :
    let ρ : Renaming := { ρ₁ with retries := ρ₁.retries ++ [w.retries.size] }
    ρ₁ ≤ ρ ∧ ρ.retry ⟨w₁.retries.size⟩ ⟨w.retries.size⟩ ∧
      Shared D ρ ρ₂ { w₁ with retries := w₁.retries.push t } w₂
        { w with retries := w.retries.push t' } := by
  intro ρ
  have hle : ρ₁ ≤ ρ := { Renaming.le_refl ρ₁ with retries := List.prefix_append _ _ }
  exact ⟨hle, h.retries.left.getElem?_concat,
    { h.mono hle with retries := (h.mono hle).retries.push_left (ht.mono hle) }⟩

lemma Shared.gather (h : Shared D ρ₁ ρ₂ w₁ w₂ w) {g g' : GatheringId} (hg : ρ₁.gathering g g')
    (i : Nat) (v : P.Value) : (w₁.gather g i v).1 = (w.gather g' i v).1 ∧
      Shared D ρ₁ ρ₂ (w₁.gather g i v).2 w₂ (w.gather g' i v).2 := by
  obtain ⟨x, _, hx, hx', rfl⟩ := h.gatherings.left.related _ _ hg
  rw [World.gather, World.gather, hx, hx']
  exact ⟨rfl, { h with gatherings := h.gatherings.set_left hg rfl }⟩

lemma Shared.couple (h : Shared D ρ₁ ρ₂ w₁ w₂ w) {g g' : PairingId} (hg : ρ₁.pairing g g')
    (side : Side) (v : P.Value) : (w₁.couple g side v).1 = (w.couple g' side v).1 ∧
      Shared D ρ₁ ρ₂ (w₁.couple g side v).2 w₂ (w.couple g' side v).2 := by
  obtain ⟨x, _, hx, hx', rfl⟩ := h.pairings.left.related _ _ hg
  rw [World.couple, World.couple, hx, hx']
  cases side <;> exact ⟨rfl, { h with pairings := h.pairings.set_left hg rfl }⟩

lemma Shared.countAttempt (h : Shared D ρ₁ ρ₂ w₁ w₂ w) {r r' : RetryId} (hr : ρ₁.retry r r') :
    Shared D ρ₁ ρ₂ (w₁.countAttempt r) w₂ (w.countAttempt r') := by
  obtain ⟨t, t', ht, ht', htwin⟩ := h.retries.left.related _ _ hr
  have hcount : Retry.Twin D ρ₁ { t with attempts := t.attempts + 1 }
      { t' with attempts := t'.attempts + 1 } :=
    { htwin with attempts_eq := congrArg (· + 1) htwin.attempts_eq }
  refine { h with retries := ?_ }
  dsimp only [World.countAttempt]
  rw [Array.modify_eq_setIfInBounds ht, Array.modify_eq_setIfInBounds ht']
  exact h.retries.set_left hr hcount

lemma Shared.nextAttempt (h : Shared D ρ₁ ρ₂ w₁ w₂ w) {r r' : RetryId} (hr : ρ₁.retry r r')
    (c : Company P) :
    (w₁.nextAttempt r).Twins D Renaming.same ρ₁ c (w.nextAttempt r') := by
  obtain ⟨t, t', ht, ht', htwin⟩ := h.retries.left.related _ _ hr
  rw [World.nextAttempt, World.nextAttempt, ht, ht']
  exact htwin.nextAttempt hr

/-! ### Operations -/

/-- What follows for us if an operation is answered in the shared world: it is answered when we are
alone, and the worlds go on as before. -/
def Follows (D : Sharing P) (ρ₁ ρ₂ : Renaming) (w₁ w₂ : World P) {κ : Type} (o : Op P κ)
    (A : Renaming → κ → κ → Prop) (r' : κ) (w' : World P) : Prop :=
  ∃ ρ r w₁', ρ₁ ≤ ρ ∧ w₁.perform o = .answer r w₁' ∧ A ρ r r' ∧ Shared D ρ ρ₂ w₁' w₂ w'

variable {κ : Type} {o o' : Op P κ} {r' : κ}

lemma Follows.plain {A : Renaming → κ → κ → Prop} {r : κ} (hr : w₁.perform o = .answer r w₁')
    (hA : A ρ₁ r r') (h : Shared D ρ₁ ρ₂ w₁' w₂ w') : Follows D ρ₁ ρ₂ w₁ w₂ o A r' w' :=
  ⟨ρ₁, r, w₁', Renaming.le_refl _, hr, hA, h⟩

/-- **The world of two parties stays what it is when one of them does something**, in the shared
world and alone. -/
theorem Shared.perform (h : Shared D ρ₁ ρ₂ w₁ w₂ w) (hw : w.queue.Ordered)
    (hclock : w₁.clock = w.clock) (ho : o.Twin D ρ₁ ⟨ρ₂, w₂.store⟩ o')
    (hr : w.perform o' = .answer r' w') :
    Follows D ρ₁ ρ₂ w₁ w₂ o (fun ρ => o.Replies D ρ ⟨ρ₂, w₂.store⟩) r' w' := by
  cases o with
  -- these hand something over and have their own lemmas
  | observe | schedule | openRetry => exact ho.elim
  | create =>
    obtain rfl := ho
    cases hr
    obtain ⟨ρ, hle, hsegment, hcapture⟩ := h.capture
    obtain ⟨hle', hp, hw'⟩ := hcapture.addPromise hsegment
    exact ⟨_, _, _, Renaming.le_trans hle hle', rfl, hp, hw'⟩
  | createUnder s =>
    obtain rfl := ho
    cases hr
    obtain ⟨hle, hp, hw'⟩ := h.addPromise (D.ours.segment_refl ρ₁ (some s))
    exact ⟨_, _, _, hle, rfl, hp, hw'⟩
  | settle p s =>
    obtain ⟨p', s', rfl, hp, hs⟩ := ho
    cases hr
    obtain ⟨htook, hw'⟩ := h.settle hw hclock hp hs
    exact .plain rfl htook hw'
  | view p =>
    obtain ⟨p', rfl, hp⟩ := ho
    cases hr
    exact .plain rfl (h.view hp) h
  | now =>
    obtain rfl := ho
    cases hr
    exact .plain rfl hclock h
  | pending =>
    obtain rfl := ho
    cases hr
    exact .plain rfl trivial h
  | settings =>
    obtain rfl := ho
    cases hr
    exact .plain rfl h.settings_left h
  | openGathering n =>
    obtain rfl := ho
    cases hr
    obtain ⟨hle, hg, hw'⟩ := h.openGathering n
    exact ⟨_, _, _, hle, rfl, hg, hw'⟩
  | gather g i v =>
    obtain ⟨g', rfl, hg⟩ := ho
    cases hr
    obtain ⟨hcomplete, hw'⟩ := h.gather hg i v
    exact .plain rfl hcomplete hw'
  | openPairing =>
    obtain rfl := ho
    cases hr
    obtain ⟨hle, hg, hw'⟩ := h.openPairing
    exact ⟨_, _, _, hle, rfl, hg, hw'⟩
  | couple g side v =>
    obtain ⟨g', rfl, hg⟩ := ho
    cases hr
    obtain ⟨hcomplete, hw'⟩ := h.couple hg side v
    exact .plain rfl hcomplete hw'
  | countAttempt r =>
    obtain ⟨r', rfl, hr'⟩ := ho
    cases hr
    exact .plain rfl rfl (h.countAttempt hr')
  | emit e =>
    obtain rfl := ho
    cases hr
    exact .plain rfl rfl (h.emit e e)
  | note n =>
    obtain ⟨n', rfl, hn⟩ := ho
    cases hr
    refine .plain rfl rfl { h with notes := ?_ }
    rw [notes_write, notes_write]
    exact h.notes.append_left hn
  | load =>
    obtain rfl := ho
    cases hr
    exact .plain rfl h.store h
  | save x =>
    obtain ⟨x', rfl, hx⟩ := ho
    cases hr
    exact .plain rfl rfl { h with store := hx }

lemma Shared.schedule (h : Shared D ρ₁ ρ₂ w₁ w₂ w) (hw : w.queue.Ordered)
    (hclock : w₁.clock = w.clock) {delay : Duration} {body body' : Script P Unit}
    (hbody : ∀ ρ' c, ρ₁ ≤ ρ' → body.Twins D Renaming.same ρ' c body') {r' : Unit}
    (hr : w.perform (.schedule delay body') = .answer r' w') :
    Follows D ρ₁ ρ₂ w₁ w₂ (.schedule delay body) (fun _ _ _ => True) r' w' := by
  obtain ⟨due, hdue, rfl⟩ := schedule_eq_answer_iff.mp hr
  exact .plain (World.perform_schedule (hclock ▸ hdue) body) trivial
    (h.addTask hw rfl (.script hbody))

end World

end Eventual
