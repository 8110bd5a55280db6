import ApiReference.Proofs.OpenTags

/-! # One container among other blocks

What balancing makes of one opening tag, whatever comes before and after it.  The tag is closed by the
first closing tag that names nothing opened since, but the container itself or one around it, if that
names the container itself (`ClosesAfter`).  If there is no such tag, the opening tag is lost
(`balance_of_not_closed`).  If there is, the container stays with what balancing makes of its content
alone (`balance_of_closed`).

The proof looks at a sweep as one that goes on above another (`Sweep.above`): while no closing tag
names a container of the lower one, only the upper one moves. -/

namespace ApiReference

/-! ### Sweeps that hold the same blocks -/

namespace Sweep

/-- The sweeps hold the same blocks, whatever was noted. -/
structure Agrees (a b : Sweep) : Prop where
  outer : a.outer = b.outer
  frames : a.frames = b.frames

/-- What was noted has no part in adding blocks. -/
theorem agrees_add (blocks outer : List Block) (frames : List Frame) (notes notes' : List Text) :
    (add blocks ⟨outer, frames, notes⟩).Agrees (add blocks ⟨outer, frames, notes'⟩) := by
  cases frames <;> exact ⟨rfl, rfl⟩

theorem agrees_closeThrough (closing : Block) (outer : List Block) :
    ∀ (frames : List Frame) (notes notes' : List Text) (loose : List Block),
      (closeThrough closing outer notes loose frames).Agrees
        (closeThrough closing outer notes' loose frames)
  | [], _, _, _ => ⟨rfl, rfl⟩
  | frame :: more, notes, notes', loose => by
      unfold closeThrough
      split
      · exact agrees_add _ _ _ _ _
      · exact agrees_closeThrough closing outer more _ _ _

namespace Agrees

variable {a b c : Sweep}

theorem refl (a : Sweep) : a.Agrees a := ⟨rfl, rfl⟩

theorem trans (hab : a.Agrees b) (hbc : b.Agrees c) : a.Agrees c :=
  ⟨hab.outer.trans hbc.outer, hab.frames.trans hbc.frames⟩

theorem step (h : a.Agrees b) (block : Block) : (a.step block).Agrees (b.step block) := by
  obtain ⟨outer, frames, notes⟩ := a
  obtain ⟨outer', frames', notes'⟩ := b
  obtain ⟨rfl, rfl⟩ : outer = outer' ∧ frames = frames' := ⟨h.outer, h.frames⟩
  have hopen : hasOpen block.name ⟨outer, frames, notes⟩ =
      hasOpen block.name ⟨outer, frames, notes'⟩ := rfl
  unfold Sweep.step
  rw [hopen]
  split
  · exact ⟨rfl, rfl⟩
  · split
    · split
      · exact agrees_closeThrough block outer frames notes notes' []
      · split
        · exact agrees_add _ _ _ _ _
        · exact ⟨rfl, rfl⟩
    · exact agrees_add _ _ _ _ _

theorem foldl (h : a.Agrees b) (blocks : List Block) :
    (blocks.foldl Sweep.step a).Agrees (blocks.foldl Sweep.step b) := by
  induction blocks generalizing a b with
  | nil => exact h
  | cons block blocks ih => exact ih (h.step block)

theorem remaining (h : a.Agrees b) : a.remaining = b.remaining := by
  rw [Sweep.remaining, Sweep.remaining, h.outer, h.frames]

end Agrees

/-! ### One sweep above another -/

/-- A sweep that goes on above another: what it has set free lies in the innermost container of the
lower one. -/
def above (upper lower : Sweep) : Sweep :=
  let base := lower.add upper.outer
  { outer := base.outer, frames := upper.frames ++ base.frames, notes := upper.notes }

theorem add_add (newer older : List Block) (sweep : Sweep) :
    (sweep.add older).add newer = sweep.add (newer ++ older) := by
  obtain ⟨outer, frames, notes⟩ := sweep
  cases frames <;> simp [add]

theorem remaining_add (blocks : List Block) (sweep : Sweep) :
    (sweep.add blocks).remaining = blocks ++ sweep.remaining := by
  obtain ⟨outer, frames, notes⟩ := sweep
  cases frames <;> simp [add, remaining]

theorem frameNames_above (upper lower : Sweep) :
    frameNames (upper.above lower).frames = frameNames upper.frames ++ frameNames lower.frames := by
  unfold above frameNames
  rw [List.map_append]
  exact congrArg _ (frameNames_add upper.outer lower)

theorem remaining_above (upper lower : Sweep) :
    (upper.above lower).remaining = upper.remaining ++ lower.remaining := by
  have h := remaining_add upper.outer lower
  unfold remaining at h ⊢
  unfold above
  rw [List.flatMap_append, List.append_assoc, h, ← List.append_assoc]

/-- Adding to the upper sweep. -/
theorem add_above (blocks : List Block) (upper lower : Sweep) :
    (upper.above lower).add blocks = (upper.add blocks).above lower := by
  obtain ⟨outer, frames, notes⟩ := upper
  cases frames with
  | nil =>
      obtain ⟨outer', frames', notes'⟩ := lower
      cases frames' <;> simp [above, add]
  | cons frame more => rfl

/-- A closing tag that names a container of the upper sweep moves only that one. -/
theorem closeThrough_above {closing : Block} {lower : Sweep} {outer : List Block} :
    ∀ (frames : List Frame) (notes : List Text) (loose : List Block),
      closing.name ∈ frameNames frames →
      closeThrough closing (lower.add outer).outer notes loose
          (frames ++ (lower.add outer).frames) =
        (closeThrough closing outer notes loose frames).above lower
  | [], _, _, h => by cases h
  | frame :: more, notes, loose, h => by
      rw [List.cons_append]
      unfold closeThrough
      split
      · exact add_above _ { outer, frames := more, notes } lower
      · next hn =>
        have hmore : closing.name ∈ frameNames more := by
          rcases List.mem_cons.1 h with e | hm
          · exact absurd (by simp [e]) hn
          · exact hm
        exact closeThrough_above more _ _ hmore

/-- While no closing tag names a container of the lower sweep only, the upper one moves. -/
theorem step_above {upper lower : Sweep} {block : Block}
    (h : isStray (frameNames upper.frames) block = true →
      block.name ∉ frameNames lower.frames) :
    (upper.above lower).step block = (upper.step block).above lower := by
  have hname : block.closes = true → ((upper.above lower).hasOpen block.name = true ↔
      upper.hasOpen block.name = true) := by
    intro hc
    rw [hasOpen_iff, hasOpen_iff, frameNames_above, List.mem_append]
    refine ⟨fun hm => hm.elim id fun hl => ?_, .inl⟩
    by_contra hu
    exact h (by simp [isStray, hc, hu]) hl
  unfold step
  split
  · rfl
  · split
    · next hc =>
      by_cases hu : upper.hasOpen block.name = true
      · rw [if_pos ((hname hc).2 hu), if_pos hu]
        exact closeThrough_above upper.frames upper.notes [] (hasOpen_iff.1 hu)
      · rw [if_neg (mt (hname hc).1 hu), if_neg hu]
        split
        · exact add_above _ _ _
        · rfl
    · exact add_above _ _ _

/-- Containers inside the one that is closed are dissolved. -/
theorem agrees_closeThrough_append {closing : Block} {outer : List Block} (more : List Frame) :
    ∀ (frames : List Frame) (notes notes' : List Text) (loose : List Block),
      closing.name ∉ frameNames frames →
      (closeThrough closing outer notes loose (frames ++ more)).Agrees
        (closeThrough closing outer notes' (loose ++ frames.flatMap (·.inner)) more)
  | [], notes, notes', loose, _ => by
      rw [List.nil_append, List.flatMap_nil, List.append_nil]
      exact agrees_closeThrough closing outer more notes notes' loose
  | frame :: frames, notes, notes', loose, h => by
      have hname : ¬ (frame.opening.name == closing.name) = true :=
        fun e => h (List.mem_cons.2 (.inl (by simpa using (eq_of_beq e).symm)))
      have hmore : closing.name ∉ frameNames frames := fun hm => h (List.mem_cons_of_mem _ hm)
      rw [List.cons_append, closeThrough, if_neg hname, List.flatMap_cons, ← List.append_assoc]
      exact agrees_closeThrough_append more frames _ _ _ hmore

/-- What lies in the innermost container is set free with what is free already. -/
theorem closeThrough_add {closing : Block} {lower : Sweep} (hne : lower.frames ≠ [])
    (blocks : List Block) (notes : List Text) (loose : List Block) :
    closeThrough closing (lower.add blocks).outer notes loose (lower.add blocks).frames =
      closeThrough closing lower.outer notes (loose ++ blocks) lower.frames := by
  obtain ⟨outer, frames, notes'⟩ := lower
  cases frames with
  | nil => exact absurd rfl hne
  | cons frame more =>
      dsimp only [add]
      rw [closeThrough, closeThrough]
      simp only [List.append_assoc]

/-- A closing tag that names a container of the lower sweep only dissolves the upper one. -/
theorem step_above_of_lower (upper lower : Sweep) {block : Block}
    (hstray : isStray (frameNames upper.frames) block = true)
    (hlower : block.name ∈ frameNames lower.frames) :
    ((upper.above lower).step block).Agrees
      (closeThrough block lower.outer lower.notes upper.remaining lower.frames) := by
  obtain ⟨hc, hupper⟩ := Bool.and_eq_true_iff.1 hstray
  have hupper : block.name ∉ frameNames upper.frames := by simpa using hupper
  have hopen : (upper.above lower).hasOpen block.name = true := by
    rw [hasOpen_iff, frameNames_above]
    exact List.mem_append_right _ hlower
  have hne : lower.frames ≠ [] := fun e => by simp [e, frameNames] at hlower
  have hstep : (upper.above lower).step block =
      closeThrough block (lower.add upper.outer).outer upper.notes []
        (upper.frames ++ (lower.add upper.outer).frames) := by
    unfold step
    rw [opens_of_closes hc, hc, hopen]
    rfl
  rw [hstep]
  refine (agrees_closeThrough_append _ upper.frames upper.notes lower.notes [] hupper).trans ?_
  rw [closeThrough_add hne, List.nil_append]
  exact Agrees.refl _

/-! ### Blocks that stay together -/

/-- Closing a container of the lower sweep keeps what was set free in its order: the newer blocks, a
piece, and the older ones. -/
theorem exists_closeThrough_above {closing : Block} (outer : List Block) :
    ∀ (frames : List Frame) (older : List Block), closing.name ∈ frameNames frames → Waits frames →
      ∃ lower : Sweep, Waits lower.frames ∧
        LosesTags lower.held (older ++ (heldIn frames ++ outer)) ∧
        ∀ (newer piece : List Block) (notes : List Text),
          (closeThrough closing outer notes (newer ++ (piece ++ older)) frames).Agrees
            (({ outer := closing :: newer } : Sweep).above (lower.add piece))
  | [], _, h, _ => by cases h
  | frame :: more, older, h, hw => by
      obtain ⟨ho, hmore⟩ := List.forall_mem_cons.1 hw
      by_cases hn : (frame.opening.name == closing.name) = true
      · refine ⟨Sweep.add (older ++ frame.inner ++ [frame.opening]) { outer, frames := more },
          waits_add { outer, frames := more } hmore _, ?_, fun newer piece notes => ?_⟩
        · rw [held_add, heldIn_cons]
          simpa [held] using LosesTags.refl _
        · rw [closeThrough, if_pos hn]
          refine (agrees_add _ _ _ _ []).trans ?_
          unfold above
          rw [add_add, add_add]
          simp only [List.append_assoc, List.cons_append, List.nil_append]
          exact ⟨rfl, rfl⟩
      · have hname : closing.name ∈ frameNames more := by
          rcases List.mem_cons.1 h with e | hm
          · exact absurd (by simp [e]) hn
          · exact hm
        obtain ⟨lower, hlower, hlost, hall⟩ :=
          exists_closeThrough_above outer more (older ++ frame.inner) hname hmore
        refine ⟨lower, hlower, hlost.trans ?_, fun newer piece notes => ?_⟩
        · rw [heldIn_cons]
          simp only [List.append_assoc, List.cons_append]
          exact (LosesTags.refl _).append ((LosesTags.refl _).append
            (LosesTags.drop (isContent_of_opens ho) _))
        · rw [closeThrough, if_neg hn]
          have h := hall newer piece
            (notes ++ ["Dropping <" ++ frame.opening.name ++ "> closed out of order"])
          simpa only [List.append_assoc] using h

/-- Taking in one more block keeps a piece together that was set free; newer and older blocks lose
tags at most. -/
theorem exists_step_above (piece : List Block) {upper lower : Sweep} (hu : Waits upper.frames)
    (hl : Waits lower.frames) (block : Block) :
    ∃ upper' lower' : Sweep, Waits upper'.frames ∧ Waits lower'.frames ∧
      LosesTags upper'.held (block :: upper.held) ∧ LosesTags lower'.held lower.held ∧
      ((upper.above (lower.add piece)).step block).Agrees (upper'.above (lower'.add piece)) := by
  by_cases hcase : isStray (frameNames upper.frames) block = true ∧
      block.name ∈ frameNames lower.frames
  · obtain ⟨hstray, hname⟩ := hcase
    have hc : block.closes = true := (Bool.and_eq_true_iff.1 hstray).1
    have hne : lower.frames ≠ [] := fun e => by simp [e, frameNames] at hname
    obtain ⟨lower', hwaits, hlost, hall⟩ :=
      exists_closeThrough_above lower.outer lower.frames [] hname hl
    have hnone : Waits ({ outer := block :: upper.remaining } : Sweep).frames :=
      fun _ h => by cases h
    refine ⟨{ outer := block :: upper.remaining }, lower', hnone, hwaits, ?_, hlost, ?_⟩
    · exact (LosesTags.refl [block]).append (losesTags_remaining hu)
    · refine (step_above_of_lower upper _ hstray ((frameNames_add piece lower).symm ▸ hname)).trans ?_
      rw [closeThrough_add hne]
      have h := hall upper.remaining piece (lower.add piece).notes
      rwa [List.append_nil] at h
  · refine ⟨upper.step block, lower, waits_step hu block, hl, losesTags_step hu block,
      LosesTags.refl _, ?_⟩
    rw [step_above fun hstray hname => hcase ⟨hstray, frameNames_add piece lower ▸ hname⟩]
    exact Agrees.refl _

theorem exists_foldl_above (piece : List Block) {upper lower : Sweep} (hu : Waits upper.frames)
    (hl : Waits lower.frames) (blocks : List Block) :
    ∃ upper' lower' : Sweep, Waits upper'.frames ∧ Waits lower'.frames ∧
      LosesTags upper'.held (blocks.reverse ++ upper.held) ∧ LosesTags lower'.held lower.held ∧
      (blocks.foldl step (upper.above (lower.add piece))).Agrees
        (upper'.above (lower'.add piece)) := by
  induction blocks generalizing upper lower with
  | nil => exact ⟨upper, lower, hu, hl, LosesTags.refl _, LosesTags.refl _, Agrees.refl _⟩
  | cons block blocks ih =>
      obtain ⟨upper₁, lower₁, hu₁, hl₁, hlostu, hlostl, hstep⟩ := exists_step_above piece hu hl block
      obtain ⟨upper₂, lower₂, hu₂, hl₂, hlostu', hlostl', hfold⟩ := ih hu₁ hl₁
      refine ⟨upper₂, lower₂, hu₂, hl₂, hlostu'.trans ?_, hlostl'.trans hlostl, ?_⟩
      · rw [List.reverse_cons, List.append_assoc]
        exact (LosesTags.refl _).append hlostu
      · exact (hstep.foldl blocks).trans hfold

/-- A piece that was set free remains as it is, between what remains of the blocks before and of
those after it. -/
theorem exists_remaining_foldl_add (piece : List Block) {lower : Sweep} (hl : Waits lower.frames)
    (blocks : List Block) :
    ∃ newer older, LosesTags newer blocks.reverse ∧ LosesTags older lower.held ∧
      (blocks.foldl step (lower.add piece)).remaining = newer ++ (piece ++ older) := by
  have hnone : Waits ({} : Sweep).frames := fun _ h => by cases h
  obtain ⟨upper', lower', hu', hl', hlostu, hlostl, hfold⟩ :=
    exists_foldl_above piece hnone hl blocks
  have hstart : (({} : Sweep).above (lower.add piece)).Agrees (lower.add piece) := by
    obtain ⟨outer, frames, notes⟩ := lower
    cases frames <;> exact ⟨rfl, rfl⟩
  refine ⟨upper'.remaining, lower'.remaining, ?_, (losesTags_remaining hl').trans hlostl, ?_⟩
  · have hheld : blocks.reverse ++ ({} : Sweep).held = blocks.reverse := List.append_nil _
    exact (losesTags_remaining hu').trans (hheld ▸ hlostu)
  · rw [((hstart.foldl blocks).remaining).symm, hfold.remaining, remaining_above, remaining_add]

/-! ### Balancing reads on -/

theorem frameNames_closeThrough {closing : Block} (outer : List Block) :
    ∀ (frames : List Frame) (notes : List Text) (loose : List Block),
      closing.name ∈ frameNames frames →
      frameNames (closeThrough closing outer notes loose frames).frames =
        ((frameNames frames).dropWhile fun name => name != closing.name).tail
  | [], _, _, h => by cases h
  | frame :: more, notes, loose, h => by
      have hcons : frameNames (frame :: more) = frame.opening.name :: frameNames more := rfl
      rw [hcons]
      by_cases hn : (frame.opening.name == closing.name) = true
      · rw [closeThrough, if_pos hn, frameNames_add, List.dropWhile_cons_of_neg (by simpa using hn)]
        rfl
      · have hmore : closing.name ∈ frameNames more := by
          rcases List.mem_cons.1 h with e | hm
          · exact absurd (by simp [e]) hn
          · exact hm
        rw [closeThrough, if_neg hn, List.dropWhile_cons_of_pos (by simpa using hn)]
        exact frameNames_closeThrough outer more _ _ hmore

/-- The containers that are open while blocks are balanced are those of the reading. -/
theorem frameNames_step (sweep : Sweep) (block : Block) :
    frameNames (sweep.step block).frames = openedBy (frameNames sweep.frames) block := by
  unfold step openedBy
  split
  · rfl
  · split
    · next hc =>
      by_cases hm : block.name ∈ frameNames sweep.frames
      · rw [if_pos (hasOpen_iff.2 hm), if_pos (by simp [hc, hm])]
        exact frameNames_closeThrough sweep.outer sweep.frames sweep.notes [] hm
      · have hkept : ¬ (block.closes && (frameNames sweep.frames).contains block.name) = true := by
          simp [hm]
        rw [if_neg (mt hasOpen_iff.1 hm), if_neg hkept]
        split
        · exact frameNames_add _ _
        · rfl
    · next hc =>
      rw [if_neg (by simp [hc])]
      exact frameNames_add _ _

theorem frameNames_foldl (sweep : Sweep) (blocks : List Block) :
    frameNames (blocks.foldl step sweep).frames =
      openedBlocks (frameNames sweep.frames) blocks := by
  induction blocks generalizing sweep with
  | nil => rfl
  | cons block blocks ih => rw [List.foldl_cons, ih, frameNames_step, openedBlocks_cons]

/-- While no stray closing tag names a container of the lower sweep, only the upper one moves. -/
theorem foldl_above {upper lower : Sweep} {blocks : List Block}
    (h : ∀ name ∈ strayNames (frameNames upper.frames) blocks, name ∉ frameNames lower.frames) :
    blocks.foldl step (upper.above lower) = (blocks.foldl step upper).above lower := by
  induction blocks generalizing upper with
  | nil => rfl
  | cons block blocks ih =>
      rw [strayNames, List.forall_mem_append] at h
      rw [List.foldl_cons, List.foldl_cons, step_above fun hstray => h.1 _ (by simp [hstray])]
      refine ih ?_
      rw [frameNames_step]
      exact h.2

end Sweep

/-! ### The tag that closes a container -/

/-- After content, a tag closes the container that was opened before it, inside the containers
around: it names the container and nothing opened since, and no closing tag in the content does so or
names nothing opened since but a container around. -/
structure ClosesAfter (own : Text) (around : List Text) (content : List Block) (closing : Block) :
    Prop where
  closes : isStray (openedBlocks [] content) closing = true
  name : closing.name = own
  inner : ∀ name ∈ strayNames [] content, name ∉ own :: around

/-- The first stray closing tag whose name has a property. -/
theorem exists_first_stray {P : Text → Prop} {opened : List Text} {blocks : List Block}
    (h : ∃ name ∈ strayNames opened blocks, P name) :
    ∃ content closing rest, blocks = content ++ closing :: rest ∧
      (∀ name ∈ strayNames opened content, ¬ P name) ∧
      isStray (openedBlocks opened content) closing = true ∧ P closing.name := by
  induction blocks generalizing opened with
  | nil =>
      obtain ⟨name, hm, _⟩ := h
      cases hm
  | cons block blocks ih =>
      by_cases hfirst : isStray opened block = true ∧ P block.name
      · exact ⟨[], block, blocks, rfl, fun _ hm => (by cases hm), hfirst.1, hfirst.2⟩
      · have hmore : ∃ name ∈ strayNames (openedBy opened block) blocks, P name := by
          obtain ⟨name, hm, hp⟩ := h
          rw [strayNames, List.mem_append] at hm
          refine ⟨name, hm.resolve_left fun hm => hfirst ?_, hp⟩
          split at hm
          · next hstray =>
            rw [List.mem_singleton.1 hm] at hp
            exact ⟨hstray, hp⟩
          · cases hm
        obtain ⟨content, closing, rest, rfl, hinner, hstray, hp⟩ := ih hmore
        refine ⟨block :: content, closing, rest, rfl, ?_, hstray, hp⟩
        rw [strayNames, List.forall_mem_append]
        refine ⟨fun name hm hp' => ?_, hinner⟩
        split at hm
        · next hstray' =>
          rw [List.mem_singleton.1 hm] at hp'
          exact hfirst ⟨hstray', hp'⟩
        · cases hm

namespace Sweep

/-- The sweep after an opening tag. -/
def opened (tag : Block) (sweep : Sweep) : Sweep :=
  { sweep with frames := ⟨tag, []⟩ :: sweep.frames }

theorem step_opens (sweep : Sweep) {tag : Block} (ho : tag.opens = true) :
    sweep.step tag = sweep.opened tag := by
  rw [step, if_pos ho]
  rfl

/-- The blocks after an opening tag, as long as none closes it or a container around. -/
theorem foldl_opened {tag : Block} {sweep : Sweep} {content : List Block}
    (h : ∀ name ∈ strayNames [] content, name ∉ tag.name :: frameNames sweep.frames) :
    (content.foldl step (sweep.opened tag)).Agrees ((run content).above (sweep.opened tag)) := by
  have hstart : (({} : Sweep).above (sweep.opened tag)).Agrees (sweep.opened tag) := ⟨rfl, rfl⟩
  have hfold : content.foldl step (({} : Sweep).above (sweep.opened tag)) =
      (run content).above (sweep.opened tag) := foldl_above h
  rw [← hfold]
  exact Agrees.foldl ⟨hstart.outer.symm, hstart.frames.symm⟩ content

/-- The container is closed: it stays as a whole. -/
theorem step_foldl_opened {tag : Block} {sweep : Sweep} {content : List Block} {closing : Block}
    (h : ClosesAfter tag.name (frameNames sweep.frames) content closing) :
    ((content.foldl step (sweep.opened tag)).step closing).Agrees
      (sweep.add (closing :: ((run content).remaining ++ [tag]))) := by
  have hnames : frameNames (run content).frames = openedBlocks [] content := frameNames_foldl {} _
  have hstep := step_above_of_lower (run content) (sweep.opened tag)
    (hnames ▸ h.closes) (List.mem_cons.2 (.inl h.name))
  refine ((foldl_opened h.inner).step closing).trans (hstep.trans ?_)
  rw [opened, closeThrough, if_pos (by simp [h.name]), List.append_nil]
  exact agrees_add _ _ _ _ _

/-- A container around is closed: the opening tag is gone, and what came before it and after it is
kept apart. -/
theorem exists_step_foldl_opened {tag : Block} {sweep : Sweep} (hw : Waits sweep.frames)
    {content : List Block} {closing : Block}
    (hinner : ∀ name ∈ strayNames [] content, name ∉ tag.name :: frameNames sweep.frames)
    (hstray : isStray (openedBlocks [] content) closing = true) (hne : closing.name ≠ tag.name)
    (haround : closing.name ∈ frameNames sweep.frames) :
    ∃ lower : Sweep, Waits lower.frames ∧ LosesTags lower.held sweep.held ∧
      ((content.foldl step (sweep.opened tag)).step closing).Agrees
        (({ outer := closing :: (run content).remaining } : Sweep).above (lower.add [])) := by
  have hnames : frameNames (run content).frames = openedBlocks [] content := frameNames_foldl {} _
  obtain ⟨lower, hlower, hlost, hall⟩ :=
    exists_closeThrough_above sweep.outer sweep.frames [] haround hw
  refine ⟨lower, hlower, hlost, ?_⟩
  have hstep := step_above_of_lower (run content) (sweep.opened tag)
    (hnames ▸ hstray) (List.mem_cons_of_mem _ haround)
  refine ((foldl_opened hinner).step closing).trans (hstep.trans ?_)
  have hn : ¬ (tag.name == closing.name) = true := fun e => hne (eq_of_beq e).symm
  rw [opened, closeThrough, if_neg hn]
  exact hall _ [] _

end Sweep

/-! ### Balancing one container -/

theorem Sweep.waits_run (blocks : List Block) : Waits (run blocks).frames :=
  waits_foldl (fun _ h => by cases h) blocks

theorem Sweep.losesTags_run (blocks : List Block) :
    LosesTags (run blocks).held blocks.reverse := by
  have hstart : Waits ({} : Sweep).frames := fun _ h => by cases h
  have h := losesTags_foldl hstart blocks
  have hheld : blocks.reverse ++ ({} : Sweep).held = blocks.reverse := List.append_nil _
  rwa [hheld] at h

theorem Sweep.frameNames_run (blocks : List Block) :
    frameNames (run blocks).frames = openedBlocks [] blocks := frameNames_foldl {} blocks

/-- A container that is closed stays, with what balancing makes of its content alone. -/
theorem balance_of_closed {before content : List Block} {tag closing : Block} (rest : List Block)
    (ho : tag.opens = true)
    (h : ClosesAfter tag.name (openedBlocks [] before) content closing) :
    ∃ b a, LosesTags b before ∧ LosesTags a rest ∧
      balance (before ++ tag :: (content ++ closing :: rest)) =
        b ++ tag :: (balance content ++ closing :: a) := by
  rw [← Sweep.frameNames_run] at h
  obtain ⟨newer, older, hnewer, holder, hremaining⟩ := Sweep.exists_remaining_foldl_add
    (closing :: ((Sweep.run content).remaining ++ [tag])) (Sweep.waits_run before) rest
  refine ⟨older.reverse, newer.reverse, ?_, ?_, ?_⟩
  · have h := (holder.trans (Sweep.losesTags_run before)).reverse
    rwa [List.reverse_reverse] at h
  · have h := hnewer.reverse
    rwa [List.reverse_reverse] at h
  · have hrun : Sweep.run (before ++ tag :: (content ++ closing :: rest)) =
        rest.foldl Sweep.step
          ((content.foldl Sweep.step ((Sweep.run before).opened tag)).step closing) := by
      rw [← Sweep.step_opens _ ho]
      simp only [Sweep.run, List.foldl_append, List.foldl_cons]
    have hall := ((Sweep.step_foldl_opened h).foldl rest).remaining
    rw [balance, hrun, hall, hremaining, balance]
    simp only [List.reverse_append, List.reverse_cons, List.append_assoc, List.nil_append,
      List.cons_append]

/-- An opening tag that nothing closes is lost. -/
theorem balance_of_not_closed {before after : List Block} {tag : Block} (ho : tag.opens = true)
    (h : ∀ content closing rest, after = content ++ closing :: rest →
      ¬ ClosesAfter tag.name (openedBlocks [] before) content closing) :
    LosesTags (balance (before ++ tag :: after)) (before ++ after) := by
  have hrun : Sweep.run (before ++ tag :: after) =
      after.foldl Sweep.step ((Sweep.run before).opened tag) := by
    rw [← Sweep.step_opens _ ho]
    simp only [Sweep.run, List.foldl_append, List.foldl_cons]
  -- Both parts of a sweep above another one keep what they held.
  have hparts {newer older : List Block} (hn : LosesTags newer after.reverse)
      (hold : LosesTags older (Sweep.run before).held) :
      LosesTags (newer ++ older).reverse (before ++ after) := by
    have hboth := (hn.append (hold.trans (Sweep.losesTags_run before))).reverse
    rwa [← List.reverse_append, List.reverse_reverse] at hboth
  have hbefore : LosesTags (Sweep.run before).remaining (Sweep.run before).held :=
    Sweep.losesTags_remaining (Sweep.waits_run before)
  rw [balance, hrun]
  by_cases hharm : ∃ name ∈ strayNames [] after, name ∈ tag.name :: openedBlocks [] before
  · obtain ⟨content, closing, rest, rfl, hinner, hstray, hname⟩ := exists_first_stray hharm
    have hother : closing.name ≠ tag.name := fun e =>
      h content closing rest rfl ⟨hstray, e, hinner⟩
    have haround : closing.name ∈ frameNames (Sweep.run before).frames := by
      rw [Sweep.frameNames_run]
      exact (List.mem_cons.1 hname).resolve_left hother
    obtain ⟨lower, hlower, hlost, hstep⟩ := Sweep.exists_step_foldl_opened (Sweep.waits_run before)
      (Sweep.frameNames_run before ▸ hinner) hstray hother haround
    have hclosed : Sweep.Waits
        ({ outer := closing :: (Sweep.run content).remaining } : Sweep).frames :=
      fun _ hm => by cases hm
    obtain ⟨newer, older, hn, ho', hnewer, holder, hfold⟩ :=
      Sweep.exists_foldl_above [] hclosed hlower rest
    have hcontent : LosesTags (closing :: (Sweep.run content).remaining)
        (closing :: content.reverse) :=
      (LosesTags.refl [closing]).append ((Sweep.losesTags_remaining (Sweep.waits_run content)).trans
        (Sweep.losesTags_run content))
    have hafter : (content ++ closing :: rest).reverse =
        rest.reverse ++ closing :: content.reverse := by
      simp
    have hrest := (hstep.foldl rest).trans hfold
    rw [List.foldl_append, List.foldl_cons, hrest.remaining, Sweep.remaining_above,
      Sweep.remaining_add, List.nil_append]
    refine hparts ?_ ((Sweep.losesTags_remaining ho').trans (holder.trans hlost))
    rw [hafter]
    exact ((Sweep.losesTags_remaining hn).trans hnewer).trans ((LosesTags.refl _).append hcontent)
  · have hnone : ∀ name ∈ strayNames [] after,
        name ∉ tag.name :: frameNames (Sweep.run before).frames := by
      rw [Sweep.frameNames_run]
      exact fun name hm hn => hharm ⟨name, hm, hn⟩
    rw [(Sweep.foldl_opened hnone).remaining, Sweep.remaining_above]
    exact hparts ((Sweep.losesTags_remaining (Sweep.waits_run after)).trans
      (Sweep.losesTags_run after)) hbefore

end ApiReference
