import ApiReference.Declaration.Project
import Mathlib.Data.List.Forall2

/-! # How reading goes on

Reading a value step by step, it succeeds exactly if every step does (`Load.SucceedsIff.bind`,
`Load.SucceedsIff.mapM`), it returns what the last step makes of the others (`Load.Returns.bind`), and
it stops with the fault of the first step that fails, so never with one that no step has
(`Load.Avoids.bind`).  What was logged before changes none of this. -/

namespace ApiReference

namespace Load

variable {α β : Type}

theorem bind_apply (x : Load α) (f : α → Load β) (log : Log) :
    (x >>= f) log = (x log).bind fun read => f read.1 read.2 := by
  show (StateT.bind x f) log = _
  unfold StateT.bind
  cases x log <;> rfl

/-- Two steps that succeeded. -/
theorem bind_eq_ok {x : Load α} {f : α → Load β} {log : Log} {read : β × Log} :
    (x >>= f) log = .ok read ↔
      ∃ first, x log = .ok first ∧ f first.1 first.2 = .ok read := by
  rw [bind_apply]
  cases x log with
  | error fault => exact iff_of_false nofun fun ⟨_, h, _⟩ => nomatch h
  | ok first => exact ⟨fun h => ⟨first, rfl, h⟩, fun ⟨_, h, hread⟩ => by cases h; exact hread⟩

theorem mapM_cons (f : α → Load β) (a : α) (as : List α) :
    (a :: as).mapM f = f a >>= fun b => as.mapM f >>= fun bs => pure (b :: bs) :=
  List.mapM_cons

/-- What was read of every item, in order. -/
theorem forall₂_of_mapM {f : α → Load β} {as : List α} {log : Log} {read : List β × Log}
    (h : as.mapM f log = .ok read) :
    List.Forall₂ (fun a b => ∃ before after, f a before = .ok (b, after)) as read.1 := by
  induction as generalizing log read with
  | nil =>
      cases h
      exact .nil
  | cons a as ih =>
      rw [mapM_cons] at h
      obtain ⟨first, hfirst, h⟩ := bind_eq_ok.1 h
      obtain ⟨more, hmore, h⟩ := bind_eq_ok.1 h
      cases h
      exact .cons ⟨log, first.2, hfirst⟩ (ih hmore)

theorem exists_of_forall₂ {r : α → β → Prop} {as : List α} {bs : List β}
    (h : List.Forall₂ r as bs) {a : α} (ha : a ∈ as) : ∃ b, r a b := by
  induction h with
  | nil => cases ha
  | cons hfirst _ ih =>
      rcases List.mem_cons.1 ha with rfl | ha
      · exact ⟨_, hfirst⟩
      · exact ih ha

/-! ### Success -/

/-- Whatever was logged before, reading succeeds if and only if the condition holds. -/
def SucceedsIff (x : Load α) (p : Prop) : Prop := ∀ log, (∃ read, x log = .ok read) ↔ p

theorem succeedsIff_pure (a : α) : SucceedsIff (pure a) True :=
  fun log => iff_of_true ⟨(a, log), rfl⟩ trivial

theorem succeedsIff_refuse (fault : LoadFault) : SucceedsIff (refuse fault : Load α) False :=
  fun _ => iff_of_false (fun ⟨_, h⟩ => nomatch h) id

theorem succeedsIff_note (message : Text) : SucceedsIff (note message) True :=
  fun _ => iff_of_true ⟨_, rfl⟩ trivial

namespace SucceedsIff

variable {x : Load α} {f : α → Load β} {p q : Prop}

theorem congr (h : x.SucceedsIff p) (e : p ↔ q) : x.SucceedsIff q := fun log => (h log).trans e

/-- Two steps succeed if both do; what the second one needs is not up to what the first one read. -/
theorem bind (hx : x.SucceedsIff p) (hf : ∀ a, (f a).SucceedsIff q) :
    (x >>= f).SucceedsIff (p ∧ q) := by
  intro log
  constructor
  · rintro ⟨read, h⟩
    obtain ⟨first, hfirst, h⟩ := bind_eq_ok.1 h
    exact ⟨(hx log).1 ⟨first, hfirst⟩, (hf first.1 first.2).1 ⟨read, h⟩⟩
  · rintro ⟨hp, hq⟩
    obtain ⟨first, hfirst⟩ := (hx log).2 hp
    obtain ⟨read, h⟩ := (hf first.1 first.2).2 hq
    exact ⟨read, bind_eq_ok.2 ⟨first, hfirst, h⟩⟩

theorem andThen (hx : x.SucceedsIff p) (hf : ∀ a, (f a).SucceedsIff True) :
    (x >>= f).SucceedsIff p :=
  (hx.bind hf).congr (and_iff_left trivial)

theorem after (hx : x.SucceedsIff True) (hf : ∀ a, (f a).SucceedsIff p) :
    (x >>= f).SucceedsIff p :=
  (hx.bind hf).congr (and_iff_right trivial)

theorem map (hx : x.SucceedsIff p) (g : α → β) : (g <$> x).SucceedsIff p := by
  rw [← bind_pure_comp]
  exact hx.andThen fun _ => succeedsIff_pure _

theorem mapM {as : List α} {p : α → Prop} (h : ∀ a ∈ as, (f a).SucceedsIff (p a)) :
    (as.mapM f).SucceedsIff (∀ a ∈ as, p a) := by
  induction as with
  | nil => exact (succeedsIff_pure _).congr (by simp)
  | cons a as ih =>
      rw [List.forall_mem_cons] at h
      rw [mapM_cons]
      refine (h.1.bind fun b => (ih h.2).andThen fun bs => succeedsIff_pure _).congr ?_
      rw [List.forall_mem_cons]

theorem ite {c : Prop} [Decidable c] {y : Load α} (hx : c → x.SucceedsIff p)
    (hy : ¬c → y.SucceedsIff p) : (if c then x else y).SucceedsIff p := by
  split
  · next h => exact hx h
  · next h => exact hy h

theorem foldlM {as : List α} {f : β → α → Load β} (h : ∀ b, ∀ a ∈ as, (f b a).SucceedsIff True)
    (b : β) : (as.foldlM f b).SucceedsIff True := by
  induction as generalizing b with
  | nil => exact succeedsIff_pure b
  | cons a as ih =>
      have hmore := ih fun b a ha => h b a (List.mem_cons_of_mem _ ha)
      rw [List.foldlM_cons]
      exact (h b a List.mem_cons_self).after hmore

end SucceedsIff

/-! ### What is read -/

/-- Whatever was logged before, what is read has the property, if anything is. -/
def Returns (x : Load α) (p : α → Prop) : Prop := ∀ log read, x log = .ok read → p read.1

theorem returns_pure {p : α → Prop} {a : α} (h : p a) : (pure a : Load α).Returns p := by
  intro log read hread
  cases hread
  exact h

namespace Returns

theorem bind {x : Load α} {f : α → Load β} {p : β → Prop} (h : ∀ a, (f a).Returns p) :
    (x >>= f).Returns p := by
  intro log read hread
  obtain ⟨first, -, hread⟩ := bind_eq_ok.1 hread
  exact h first.1 first.2 read hread

theorem ite {c : Prop} [Decidable c] {x y : Load α} {p : α → Prop} (hx : c → x.Returns p)
    (hy : ¬c → y.Returns p) : (if c then x else y).Returns p := by
  split
  · next h => exact hx h
  · next h => exact hy h

end Returns

/-! ### Faults -/

/-- Whatever was logged before, reading does not stop with the fault. -/
def Avoids (fault : LoadFault) (x : Load α) : Prop := ∀ log, x log ≠ .error fault

section

variable {fault : LoadFault}

theorem avoids_pure (a : α) : Avoids fault (pure a : Load α) := fun _ => nofun

theorem avoids_refuse {other : LoadFault} (h : other ≠ fault) :
    Avoids fault (refuse other : Load α) := fun _ e => h (Except.error.inj e)

theorem avoids_note (message : Text) : Avoids fault (note message) := fun _ => nofun

namespace Avoids

variable {x : Load α} {f : α → Load β}

theorem bind (hx : x.Avoids fault) (hf : ∀ a, (f a).Avoids fault) : (x >>= f).Avoids fault := by
  intro log
  rw [bind_apply]
  cases h : x log with
  | error other => exact fun e => hx log (h.trans (congrArg _ (Except.error.inj e)))
  | ok first => exact hf first.1 first.2

theorem map (hx : x.Avoids fault) (g : α → β) : (g <$> x).Avoids fault := by
  rw [← bind_pure_comp]
  exact hx.bind fun _ => avoids_pure _

theorem ite {c : Prop} [Decidable c] {y : Load α} (hx : x.Avoids fault) (hy : y.Avoids fault) :
    (if c then x else y).Avoids fault := by
  split
  · exact hx
  · exact hy

theorem mapM (h : ∀ a, (f a).Avoids fault) (as : List α) : (as.mapM f).Avoids fault := by
  induction as with
  | nil => exact avoids_pure _
  | cons a as ih =>
      rw [mapM_cons]
      exact (h a).bind fun b => ih.bind fun bs => avoids_pure _

theorem foldlM {f : β → α → Load β} (h : ∀ b a, (f b a).Avoids fault) (b : β) (as : List α) :
    (as.foldlM f b).Avoids fault := by
  induction as generalizing b with
  | nil => exact avoids_pure b
  | cons a as ih =>
      rw [List.foldlM_cons]
      exact (h b a).bind ih

end Avoids

end

end Load

end ApiReference
