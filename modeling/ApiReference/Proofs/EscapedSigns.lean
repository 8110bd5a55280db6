import ApiReference.Proofs.Lines

/-! # Escaped signs

A sign is escaped by a backslash before it, and backslashes are left as they are.  Dropping the
backslash before every sign gives the text back (`Text.unescapeSign_escapeSign`), and a text is
trimmed alike before and after its signs are escaped (`Text.strip_escapeSign`). -/

namespace ApiReference

namespace Text

/-- A text with a backslash before every such sign. -/
def escapeSign (sign : Char) (x : Text) : Text :=
  x.flatMap fun c => if c = sign then ['\x5c', c] else [c]

/-- Drops the backslash before every such sign. -/
def unescapeSign (sign : Char) : Text → Text
  | [] => []
  | [c] => [c]
  | c :: d :: rest =>
    if c = '\x5c' ∧ d = sign then d :: unescapeSign sign rest
    else c :: unescapeSign sign (d :: rest)

section

variable {sign : Char}

theorem escapeSign_cons_self (sign : Char) (x : Text) :
    escapeSign sign (sign :: x) = '\x5c' :: sign :: escapeSign sign x := by
  rw [escapeSign, List.flatMap_cons, if_pos rfl]
  rfl

theorem escapeSign_cons {c : Char} (h : c ≠ sign) (x : Text) :
    escapeSign sign (c :: x) = c :: escapeSign sign x := by
  rw [escapeSign, List.flatMap_cons, if_neg h]
  rfl

theorem escapeSign_append (sign : Char) (x y : Text) :
    escapeSign sign (x ++ y) = escapeSign sign x ++ escapeSign sign y :=
  List.flatMap_append

theorem escapeSign_of_not_mem {x : Text} (h : sign ∉ x) : escapeSign sign x = x := by
  induction x with
  | nil => rfl
  | cons c x ih =>
      rw [List.mem_cons, not_or] at h
      rw [escapeSign_cons fun e => h.1 e.symm, ih h.2]

/-- Escapes bring in nothing but backslashes. -/
theorem mem_escapeSign {c : Char} {x : Text} (h : c ∈ escapeSign sign x) : c ∈ x ∨ c = '\x5c' := by
  obtain ⟨d, hd, hc⟩ := List.mem_flatMap.1 h
  split at hc
  · rcases List.mem_cons.1 hc with rfl | hc
    · exact .inr rfl
    · exact .inl (List.mem_singleton.1 hc ▸ hd)
  · exact .inl (List.mem_singleton.1 hc ▸ hd)

/-- No sign stands at the start, where nothing escapes it. -/
theorem head?_escapeSign (h : sign ≠ '\x5c') (x : Text) :
    (escapeSign sign x).head? ≠ some sign := by
  cases x with
  | nil => exact nofun
  | cons c x =>
      by_cases hc : c = sign
      · subst hc
        rw [escapeSign_cons_self]
        exact fun e => h (Option.some.inj e).symm
      · rw [escapeSign_cons hc]
        exact fun e => hc (Option.some.inj e)

/-- Escapes are undone, also after backslashes that the text holds itself. -/
theorem unescapeSign_escapeSign (h : sign ≠ '\x5c') (x : Text) :
    unescapeSign sign (escapeSign sign x) = x := by
  induction x with
  | nil => rfl
  | cons c x ih =>
      by_cases hc : c = sign
      · subst hc
        rw [escapeSign_cons_self, unescapeSign, if_pos ⟨rfl, rfl⟩, ih]
      · rw [escapeSign_cons hc]
        have hhead := head?_escapeSign h x
        cases hx : escapeSign sign x with
        | nil =>
            rw [hx] at ih
            rw [← ih]
            rfl
        | cons d rest =>
            rw [hx] at ih hhead
            have hpair : ¬ (c = '\x5c' ∧ d = sign) := fun hpair => hhead (congrArg some hpair.2)
            rw [unescapeSign, if_neg hpair, ih]

/-! ### Trimming -/

theorem stripStart_escapeSign (h : isBlank sign = false) (x : Text) :
    (escapeSign sign x).stripStart = escapeSign sign x.stripStart := by
  induction x with
  | nil => rfl
  | cons c x ih =>
      by_cases hc : c = sign
      · subst hc
        rw [escapeSign_cons_self, stripStart_cons _ (by decide), stripStart_cons _ h,
          escapeSign_cons_self]
      · rw [escapeSign_cons hc]
        by_cases hb : isBlank c = true
        · rw [stripStart, stripStart, List.dropWhile_cons_of_pos hb, List.dropWhile_cons_of_pos hb]
          exact ih
        · have hb : isBlank c = false := by simpa using hb
          rw [stripStart_cons _ hb, stripStart_cons _ hb, escapeSign_cons hc]

theorem stripEnd_escapeSign (h : isBlank sign = false) (x : Text) :
    (escapeSign sign x).stripEnd = escapeSign sign x.stripEnd := by
  induction x using List.reverseRecOn with
  | nil => rfl
  | append_singleton x c ih =>
      by_cases hb : isBlank c = true
      · have hgap : isAllBlank [c] = true := by simpa [isAllBlank] using hb
        have hc : c ≠ sign := by
          rintro rfl
          rw [h] at hb
          cases hb
        rw [escapeSign_append, escapeSign_cons hc, stripEnd_append_blank x hgap]
        exact (stripEnd_append_blank _ hgap).trans ih
      · have hb : isBlank c = false := by simpa using hb
        obtain ⟨start, hstart⟩ : ∃ start, escapeSign sign (x ++ [c]) = start ++ [c] := by
          rw [escapeSign_append]
          by_cases hc : c = sign
          · subst hc
            exact ⟨escapeSign c x ++ ['\x5c'], by rw [escapeSign_cons_self]; simp [escapeSign]⟩
          · exact ⟨escapeSign sign x, by rw [escapeSign_cons hc]; rfl⟩
        rw [stripEnd_concat hb, hstart, stripEnd_concat hb]

/-- A sign that is no blank is trimmed neither before nor after it is escaped. -/
theorem strip_escapeSign (h : isBlank sign = false) (x : Text) :
    (escapeSign sign x).strip = escapeSign sign x.strip := by
  rw [strip_eq, strip_eq, stripStart_escapeSign h, stripEnd_escapeSign h]

end

end Text

end ApiReference
