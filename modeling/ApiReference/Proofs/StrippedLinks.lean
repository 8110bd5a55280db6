import ApiReference.Proofs.LinkSigns
import Mathlib.Data.List.Rotate

/-! # Links stripped from a displayed type

A link is stripped by its signs: from an opening bracket to the next closing one, if an address
follows.  The opening bracket need not be the link's own; one of a tuple or of an indexed access
that is still open comes first.  Then that bracket is dropped and the link's stays, so the type that
is left is the type without links only where nothing but brackets stands between the two
(`stripLinks_show_iff`). -/

namespace ApiReference

/-! ### Stripping -/

theorem forall_bne_of_not_mem {c : Char} {x : Text} (h : c ∉ x) : ∀ d ∈ x, (d != c) = true := by
  intro d hd
  rw [bne_iff_ne]
  exact fun e => h (e ▸ hd)

namespace Markup

variable {x w : Text}

theorem linkRest?_eq_none (h : ∀ rest, x.dropWhile (· != ']') ≠ ']' :: '(' :: rest) :
    linkRest? x = none := by
  unfold linkRest?
  split
  · next target e => exact absurd e (h target)
  · rfl

theorem stripLinks_cons_of_none {c : Char} (h : linkRest? x = none) :
    stripLinks (c :: x) = c :: stripLinks x := by
  rw [stripLinks]
  split
  · split
    · next e =>
      rw [h] at e
      cases e
    · rfl
  · rfl

theorem stripLinks_of_no_closing (hx : ']' ∉ x) : stripLinks x = x := by
  induction x with
  | nil => rw [stripLinks]
  | cons c x ih =>
      have hrest : ']' ∉ x := fun hm => hx (List.mem_cons_of_mem c hm)
      have hdrop : x.dropWhile (· != ']') = [] :=
        List.dropWhile_eq_nil_iff.2 (forall_bne_of_not_mem hrest)
      rw [stripLinks_cons_of_none (linkRest?_eq_none (by simp [hdrop])), ih hrest]

/-- Nothing is stripped up to a closing bracket that no address follows. -/
theorem stripLinks_append_closing (hx : ']' ∉ x) (hw : w.head? ≠ some '(') :
    stripLinks (x ++ ']' :: w) = x ++ ']' :: stripLinks w := by
  induction x with
  | nil => rw [List.nil_append, stripLinks, if_neg (by decide), List.nil_append]
  | cons c x ih =>
      have hrest : ']' ∉ x := fun hm => hx (List.mem_cons_of_mem c hm)
      have hdrop : (x ++ ']' :: w).dropWhile (· != ']') = ']' :: w := by
        rw [List.dropWhile_append_of_pos (forall_bne_of_not_mem hrest)]
        rfl
      have hnone : linkRest? (x ++ ']' :: w) = none := by
        apply linkRest?_eq_none
        intro rest e
        rw [hdrop] at e
        cases e
        exact hw rfl
      rw [List.cons_append, stripLinks_cons_of_none hnone, ih hrest, List.cons_append]

theorem stripLinks_append_of_no_opening (hx : '[' ∉ x) :
    stripLinks (x ++ w) = x ++ stripLinks w := by
  induction x with
  | nil => rfl
  | cons c x ih =>
      obtain ⟨hc, hrest⟩ := not_or.1 (List.mem_cons.not.1 hx)
      rw [List.cons_append, stripLinks, if_neg (Ne.symm hc), ih hrest, List.cons_append]

/-- A link gives way to its label. -/
theorem stripLinks_link {label href : Text} (hne : label ≠ []) (hlabel : ']' ∉ label)
    (hnonempty : href ≠ []) (hhref : ')' ∉ href) :
    stripLinks ('[' :: (label ++ ("](" ++ (href ++ (')' :: w))))) = label ++ stripLinks w := by
  have hlabel' : ∀ c ∈ label, (c != ']') = true := forall_bne_of_not_mem hlabel
  have hhref' : ∀ c ∈ href, (c != ')') = true := forall_bne_of_not_mem hhref
  have hrest : linkRest? (label ++ ("](" ++ (href ++ (')' :: w)))) = some (label, w) := by
    unfold linkRest?
    rw [List.dropWhile_append_of_pos hlabel', List.takeWhile_append_of_pos hlabel']
    simp [List.dropWhile_append_of_pos hhref', List.takeWhile_append_of_pos hhref', hne, hnonempty]
  rw [stripLinks, if_pos rfl]
  split
  · next e =>
    rw [hrest] at e
    cases e
    rfl
  · next e =>
    rw [hrest] at e
    cases e

end Markup

/-! ### Open brackets -/

/-- What stands after the last closing bracket of a text, from the first opening one on. -/
def unclosed (x : Text) : Text :=
  ((x.reverse.takeWhile (· != ']')).reverse).dropWhile (· != '[')

theorem closing_not_mem_unclosed (x : Text) : ']' ∉ unclosed x := by
  intro hm
  have hm := List.mem_reverse.1 ((List.dropWhile_sublist _).subset hm)
  simpa using List.mem_takeWhile_imp hm

theorem unclosed_closing (x : Text) : unclosed (x ++ [']']) = [] := by
  simp [unclosed]

theorem unclosed_append {x y : Text} (hy : ']' ∉ y) :
    unclosed (x ++ y) =
      if (unclosed x).isEmpty then y.dropWhile (· != '[') else unclosed x ++ y := by
  have hreverse : ∀ c ∈ y.reverse, (c != ']') = true :=
    forall_bne_of_not_mem (List.mem_reverse.not.2 hy)
  rw [unclosed, List.reverse_append, List.takeWhile_append_of_pos hreverse, List.reverse_append,
    List.reverse_reverse, List.dropWhile_append]
  rfl

/-- What stands open begins with its bracket. -/
theorem unclosed_eq_nil_or (x : Text) : unclosed x = [] ∨ ∃ rest, unclosed x = '[' :: rest := by
  cases e : unclosed x with
  | nil => exact .inl rfl
  | cons c rest =>
      have hc := List.head?_dropWhile_not (· != '[') (x.reverse.takeWhile (· != ']')).reverse
      rw [← unclosed, e] at hc
      have hc : c = '[' := by simpa using hc
      exact .inr ⟨rest, by rw [hc]⟩

/-! ### Stripping glyph by glyph -/

/-- A text that is there and holds no brackets. -/
def isLabel (x : Text) : Bool := !x.isEmpty && isBracketFree x

/-- The same names are linked, to no address. -/
def Links.blank (links : Links) : Links := fun name => (links name).map fun _ => []

namespace Glyph

/-- Only opening brackets are open before each link. -/
def LinksLead (links : Links) (x : Text) (row : List Glyph) : Prop :=
  ∀ before name after, row = before ++ .name name :: after → (links name).isSome = true →
    ∀ c ∈ unclosed (x ++ writeAll links.blank before), c = '['

/-- If this glyph is a link, only opening brackets are open before it. -/
def Leads (links : Links) (x : Text) (g : Glyph) : Prop :=
  ∀ name, g = .name name → (links name).isSome = true → ∀ c ∈ unclosed x, c = '['

theorem linksLead_cons {links : Links} {x : Text} {g : Glyph} {row : List Glyph} :
    LinksLead links x (g :: row) ↔
      Leads links x g ∧ LinksLead links (x ++ g.write links.blank) row := by
  have hwrite (before : List Glyph) : x ++ writeAll links.blank (g :: before) =
      x ++ g.write links.blank ++ writeAll links.blank before := by
    rw [List.append_assoc]
    rfl
  constructor
  · intro h
    refine ⟨?_, ?_⟩
    · rintro name rfl hlinked
      have hfirst := h [] name row rfl hlinked
      rwa [writeAll, List.flatMap_nil, List.append_nil] at hfirst
    · intro before name after e hlinked
      rw [← hwrite]
      exact h (g :: before) name after (by rw [e, List.cons_append]) hlinked
  · rintro ⟨hfirst, hrest⟩ before name after e hlinked
    cases before with
    | nil =>
        rw [writeAll, List.flatMap_nil, List.append_nil]
        exact hfirst name (List.cons.inj e).1 hlinked
    | cons other before =>
        obtain ⟨rfl, hrow⟩ := List.cons.inj e
        rw [hwrite]
        exact hrest before name after hrow hlinked

/-- How stripping gets past a glyph when `w` follows: what is left of it in the text with links, and
what it is in the text without. -/
structure Strips (links : Links) (x : Text) (g : Glyph) (w stripped kept : Text) : Prop where
  length : stripped.length = kept.length
  linked : Markup.stripLinks (unclosed x ++ (g.write links ++ w)) =
    stripped ++ Markup.stripLinks (unclosed (x ++ g.write links.blank) ++ w)
  plain : unclosed x ++ g.write Links.none = kept ++ unclosed (x ++ g.write links.blank)
  same : stripped = kept ↔ Leads links x g

variable {links : Links} {x w : Text}

/-- A text without closing brackets is kept, up to a bracket that it may open. -/
theorem exists_strips_of_unlinked {g : Glyph} {y : Text} (hy : ']' ∉ y)
    (hwrite : ∀ name href, g = .name name → links name ≠ some href)
    (hlinked : g.write links = y) (hblank : g.write links.blank = y)
    (hplain : g.write Links.none = y) : ∃ kept, Strips links x g w kept kept := by
  have hkept : ∃ kept, '[' ∉ kept ∧ unclosed x ++ y = kept ++ unclosed (x ++ y) := by
    rw [unclosed_append hy]
    split
    · next hempty =>
      rw [List.isEmpty_iff.1 hempty, List.nil_append]
      refine ⟨y.takeWhile (· != '['), ?_, List.takeWhile_append_dropWhile.symm⟩
      intro hm
      simpa using List.mem_takeWhile_imp hm
    · exact ⟨[], nofun, rfl⟩
  obtain ⟨kept, hopening, hkept⟩ := hkept
  refine ⟨kept, rfl, ?_, ?_, iff_of_true rfl ?_⟩
  · rw [hlinked, hblank, ← List.append_assoc, hkept, List.append_assoc,
      Markup.stripLinks_append_of_no_opening hopening]
  · rw [hplain, hblank, hkept]
  · intro name hname hsome
    obtain ⟨href, hhref⟩ := Option.isSome_iff_exists.1 hsome
    exact absurd hhref (hwrite name href hname)

/-- Nothing that a closing bracket ends is stripped without an address. -/
theorem strips_closing (hw : w.head? ≠ some '(') :
    Strips links x (.char ']') w (unclosed x ++ [']']) (unclosed x ++ [']']) where
  length := rfl
  linked := by
    have hwrite : unclosed x ++ ((Glyph.char ']').write links ++ w) = unclosed x ++ ']' :: w := rfl
    have hblank : x ++ (Glyph.char ']').write links.blank = x ++ [']'] := rfl
    rw [hwrite, hblank, unclosed_closing,
      Markup.stripLinks_append_closing (closing_not_mem_unclosed x) hw]
    simp
  plain := by
    have hblank : x ++ (Glyph.char ']').write links.blank = x ++ [']'] := rfl
    rw [hblank, unclosed_closing, List.append_nil]
    rfl
  same := iff_of_true rfl nofun

/-- A link is stripped from the first bracket that is open before it, if there is one. -/
theorem strips_link {name href : Text} (hname : name ≠ []) (hfree : ']' ∉ name)
    (hlink : links name = some href) (hhref : href ≠ []) (haddress : ')' ∉ href) :
    Strips links x (.name name) w ((unclosed x).rotate 1 ++ name) (unclosed x ++ name) := by
  have hblank : unclosed (x ++ (Glyph.name name).write links.blank) = [] := by
    have hshown : shownName links.blank name = ('[' :: name ++ [']']) ++ "()" := by
      rw [shownName, Links.blank, hlink]
      simp
    rw [write, hshown, ← List.append_assoc, ← List.append_assoc, unclosed_append (by decide),
      unclosed_closing]
    rfl
  have hwrite : (Glyph.name name).write links = '[' :: (name ++ ("](" ++ (href ++ [')']))) := by
    rw [write, shownName, hlink]
    simp
  have hplain : (Glyph.name name).write Links.none = name := rfl
  constructor
  · rw [List.length_append, List.length_append, List.length_rotate]
  · rw [hblank, hwrite]
    rcases unclosed_eq_nil_or x with hopen | ⟨rest, hopen⟩
    · have hstrip := Markup.stripLinks_link (w := w) hname hfree hhref haddress
      simpa [hopen] using hstrip
    · -- The label reaches from the bracket that is open to the end of the name.
      have hrest : ']' ∉ rest ++ '[' :: name := by
        have hclosed := closing_not_mem_unclosed x
        rw [hopen] at hclosed
        simpa [hfree] using hclosed
      have hstrip := Markup.stripLinks_link (w := w) (by simp) hrest hhref haddress
      simpa [hopen] using hstrip
  · rw [hblank, hplain, List.append_nil]
  · rw [List.append_left_inj]
    constructor
    · intro hrotate other _ _ c hc
      obtain ⟨d, hd⟩ := List.rotate_one_eq_self_iff_eq_replicate.1 hrotate
      rcases unclosed_eq_nil_or x with hopen | ⟨rest, hopen⟩
      · rw [hopen] at hc
        cases hc
      · have hall (e : Char) (he : e ∈ unclosed x) : e = d := by
          rw [hd] at he
          exact List.eq_of_mem_replicate he
        rw [hall c hc]
        exact (hall '[' (by rw [hopen]; exact List.mem_cons_self)).symm
    · intro hleads
      have hall := hleads name rfl (by rw [hlink]; rfl)
      exact List.rotate_one_eq_self_iff_eq_replicate.2 ⟨'[', List.eq_replicate_of_mem hall⟩

/-- Stripping gets past every glyph of a row in which signs part the brackets. -/
theorem exists_strips {g : Glyph} {row : List Glyph}
    (hrefs : ∀ name href, links name = some href → href ≠ [] ∧ ')' ∉ href)
    (h : Parted isLabel (g :: row)) (x : Text) :
    ∃ stripped kept, Strips links x g (writeAll links row) stripped kept := by
  cases g with
  | char c =>
      by_cases hc : c = ']'
      · subst hc
        refine ⟨_, _, strips_closing ?_⟩
        intro hparenthesis
        cases row with
        | nil => cases hparenthesis
        | cons next row =>
            have hnext := (List.isChain_cons_cons.1 h.chain).1
            cases next with
            | name y => cases hnext
            | char d =>
                cases Option.some.inj hparenthesis
                cases hnext
      · have hclosing : ']' ∉ [c] := by simpa using Ne.symm hc
        have hstrips : ∃ kept, Strips links x (.char c) (writeAll links row) kept kept :=
          exists_strips_of_unlinked hclosing nofun rfl rfl rfl
        obtain ⟨kept, hkept⟩ := hstrips
        exact ⟨kept, kept, hkept⟩
  | name y =>
      have hlabel := h.names y List.mem_cons_self
      rw [isLabel, Bool.and_eq_true, Bool.not_eq_true', List.isEmpty_eq_false_iff] at hlabel
      have hfree := (not_mem_of_isBracketFree hlabel.2).2.1
      cases hlink : links y with
      | some href =>
          obtain ⟨hhref, haddress⟩ := hrefs y href hlink
          exact ⟨_, _, strips_link hlabel.1 hfree hlink hhref haddress⟩
      | none =>
          have hwrite : (Glyph.name y).write links = y := by rw [write, shownName, hlink]
          have hblank : (Glyph.name y).write links.blank = y := by
            rw [write, shownName, Links.blank, hlink, Option.map_none]
          obtain ⟨kept, hkept⟩ := exists_strips_of_unlinked (x := x) (w := writeAll links row)
            hfree (by rintro name href ⟨⟩; simp [hlink]) hwrite hblank rfl
          exact ⟨kept, kept, hkept⟩

/-- Stripping a displayed type leaves a text of the same length, which is the type without links
where only opening brackets are open before each link. -/
theorem stripLinks_writeAll {row : List Glyph}
    (hrefs : ∀ name href, links name = some href → href ≠ [] ∧ ')' ∉ href)
    (h : Parted isLabel row) (x : Text) :
    (Markup.stripLinks (unclosed x ++ writeAll links row)).length =
        (unclosed x ++ writeAll Links.none row).length ∧
      (Markup.stripLinks (unclosed x ++ writeAll links row) =
        unclosed x ++ writeAll Links.none row ↔ LinksLead links x row) := by
  induction row generalizing x with
  | nil =>
      have hstrip := Markup.stripLinks_of_no_closing (closing_not_mem_unclosed x)
      have hlead : LinksLead links x [] := by
        intro before name after e
        simp at e
      simp [writeAll, hstrip, hlead]
  | cons g row ih =>
      obtain ⟨stripped, kept, hstrips⟩ := exists_strips hrefs h x
      have hrow : Parted isLabel row :=
        ⟨h.chain.tail, fun y hm => h.names y (List.mem_cons_of_mem g hm)⟩
      obtain ⟨hlength, hiff⟩ := ih hrow (x ++ g.write links.blank)
      have hlinked : Markup.stripLinks (unclosed x ++ writeAll links (g :: row)) = stripped ++
          Markup.stripLinks (unclosed (x ++ g.write links.blank) ++ writeAll links row) :=
        hstrips.linked
      have hplain : unclosed x ++ writeAll Links.none (g :: row) =
          kept ++ (unclosed (x ++ g.write links.blank) ++ writeAll Links.none row) := by
        rw [← List.append_assoc, ← hstrips.plain, List.append_assoc]
        rfl
      rw [hlinked, hplain, linksLead_cons, ← hstrips.same, ← hiff]
      refine ⟨by rw [List.length_append, List.length_append, hstrips.length, hlength], ?_⟩
      constructor
      · intro e
        exact List.append_inj e hstrips.length
      · rintro ⟨hfirst, hrest⟩
        rw [hfirst, hrest]

end Glyph

/-- Where no address holds a closing parenthesis, the names are labels and no other word holds
brackets, stripping the links of a displayed type leaves the type without links if and only if
nothing but opening brackets is open before each link. -/
theorem stripLinks_show_iff (refs : ReferenceMap)
    (hrefs : ∀ name href, refs.href? name = some href → ')' ∉ href) (type : TypeExpr)
    (h : type.wordedBy isLabel isBracketFree = true) :
    ∃ linked plain, type.show refs.links = .ok (.str linked) ∧
      type.show Links.none = .ok (.str plain) ∧
      (Markup.stripLinks linked = plain ↔ ∀ before name after,
        type.glyphs = before ++ .name name :: after → name ∈ refs.names →
          ∀ c ∈ unclosed (Glyph.writeAll refs.links.blank before), c = '[') := by
  refine ⟨_, _, show_eq refs.links type h, show_eq Links.none type h, ?_⟩
  have hwords : Unbracketed isLabel isBracketFree := by
    refine ⟨fun x hx => ?_, fun _ => id⟩
    rw [isLabel, Bool.and_eq_true] at hx
    exact hx.2
  have haddresses : ∀ name href, refs.links name = some href → href ≠ [] ∧ ')' ∉ href := by
    intro name href hhref
    refine ⟨?_, hrefs name href hhref⟩
    rw [← List.isEmpty_eq_false_iff]
    exact ReferenceMap.isEmpty_of_href? hhref
  have hstrip := (Glyph.stripLinks_writeAll haddresses (parted_glyphs hwords type h) []).2
  simp only [← ReferenceMap.isSome_links_iff]
  exact hstrip

/-- In a tuple, the bracket of the tuple is dropped and that of the link stays. -/
theorem stripLinks_show_ne_tuple :
    let type : TypeExpr := .tuple [.intrinsic "string", .reference "User" []]
    (∀ name href, userRefs.href? name = some href → ')' ∉ href) ∧
      type.wordedBy isLabel isBracketFree = true ∧
      ∃ linked plain, type.show userRefs.links = .ok (.str linked) ∧
        type.show Links.none = .ok (.str plain) ∧ Markup.stripLinks linked ≠ plain := by
  intro type
  have hrefs : ∀ name href, userRefs.href? name = some href → ')' ∉ href := by
    intro name href hhref
    have hname : name ∈ userRefs.names :=
      ReferenceMap.isSome_links_iff.1 (Option.isSome_of_eq_some hhref)
    have hnames : userRefs.names = [("User" : Text)] := by decide
    rw [hnames, List.mem_singleton] at hname
    have haddress : userRefs.href? "User" = some "/api/interfaces/user" := by decide
    rw [hname, haddress] at hhref
    cases hhref
    decide
  have hworded : type.wordedBy isLabel isBracketFree = true := by decide
  obtain ⟨linked, plain, hlinked, hplain, hiff⟩ := stripLinks_show_iff userRefs hrefs type hworded
  refine ⟨hrefs, hworded, linked, plain, hlinked, hplain, fun hstrip => ?_⟩
  have hglyphs : type.glyphs = Glyph.ofText "[string, " ++ .name "User" :: [.char ']'] := by decide
  have hopen := hiff.1 hstrip _ _ _ hglyphs (by decide) 's' (by decide)
  cases hopen

end ApiReference
