import ApiReference.Document.Repair

/-! # Nested containers

Blocks are read with a stack of the names of open containers.  `openedAfter?` is that reading, and
`Nested` says that it goes through and leaves nothing open: every closing tag closes the innermost
open container, except for stray closing tags that are kept on purpose.

Main statements: balanced blocks are nested (`nested_balance`), and neither demoting nor cleaning
changes how blocks are read (`openedAfter?_map_demote`, `openedAfter?_clean`).

The invariant of balancing (`Sweep.Sound`) says that the blocks between two open tags are *neutral*:
read under any of the containers around them, they leave the stack as it was.  It is stated for all
stacks whose names are among those of the containers around, since a container that is open while
the blocks are taken in may lose its tag later. -/

namespace ApiReference

/-- The open containers after one more block, the innermost one first; none if the block is a
closing tag out of place.  A stray closing tag is in place where no container of its name is open,
provided that stray tags of that name are kept. -/
def nextOpened? (opened : List Text) (block : Block) : Option (List Text) :=
  if block.opens then some (block.name :: opened)
  else if block.closes then
    if opened.head? = some block.name then some opened.tail
    else if isKeptWhenStray block.name && !opened.contains block.name then some opened
    else none
  else some opened

/-- The open containers after blocks, if every closing tag is in place. -/
def openedAfter? : List Text → List Block → Option (List Text)
  | opened, [] => some opened
  | opened, block :: more => (nextOpened? opened block).bind fun next => openedAfter? next more

/-- Every closing tag is in place, and no container stays open. -/
def Nested (blocks : List Block) : Prop := openedAfter? [] blocks = some []

instance (blocks : List Block) : Decidable (Nested blocks) :=
  inferInstanceAs (Decidable (openedAfter? [] blocks = some []))

/-! ### Reading block by block -/

theorem openedAfter?_append (opened : List Text) (a b : List Block) :
    openedAfter? opened (a ++ b) = (openedAfter? opened a).bind fun next => openedAfter? next b := by
  induction a generalizing opened with
  | nil => rfl
  | cons block a ih =>
      simp only [List.cons_append, openedAfter?, Option.bind_assoc]
      congr 1
      funext next
      exact ih next

theorem opens_of_closes {block : Block} (h : block.closes = true) : block.opens = false := by
  simp only [Block.closes, beq_iff_eq] at h
  simp [Block.opens, h]

theorem nextOpened?_opens (opened : List Text) {block : Block} (h : block.opens = true) :
    nextOpened? opened block = some (block.name :: opened) := by
  simp [nextOpened?, h]

theorem nextOpened?_closes (opened : List Text) {block : Block} (h : block.closes = true) :
    nextOpened? (block.name :: opened) block = some opened := by
  simp [nextOpened?, h, opens_of_closes h]

/-- Blocks that are no tags of containers leave the stack alone. -/
theorem nextOpened?_content (opened : List Text) {block : Block} (ho : block.opens = false)
    (hc : block.closes = false) : nextOpened? opened block = some opened := by
  simp [nextOpened?, ho, hc]

/-- A stray closing tag that is kept is in place where no container of its name is open. -/
theorem nextOpened?_stray {opened : List Text} {block : Block} (ho : block.opens = false)
    (hk : isKeptWhenStray block.name = true) (h : block.name ∉ opened) :
    nextOpened? opened block = some opened := by
  have hhead : opened.head? ≠ some block.name := fun e => h (List.mem_of_mem_head? e)
  by_cases hc : block.closes = true
  · simp [nextOpened?, ho, hc, hhead, hk, h]
  · exact nextOpened?_content opened ho (by simpa using hc)

/-! ### Neutral blocks -/

/-- Under any containers among the named ones, the blocks leave open what was open. -/
def NeutralIn (names : List Text) (blocks : List Block) : Prop :=
  ∀ opened, opened ⊆ names → openedAfter? opened blocks = some opened

namespace NeutralIn

variable {names : List Text} {a b : List Block}

theorem nil (names : List Text) : NeutralIn names [] := fun _ _ => rfl

theorem mono {names' : List Text} (h : NeutralIn names a) (hs : names' ⊆ names) :
    NeutralIn names' a :=
  fun opened ho => h opened (List.Subset.trans ho hs)

theorem append (ha : NeutralIn names a) (hb : NeutralIn names b) : NeutralIn names (a ++ b) := by
  intro opened ho
  rw [openedAfter?_append, ha opened ho]
  exact hb opened ho

theorem singleton {block : Block}
    (h : ∀ opened, opened ⊆ names → nextOpened? opened block = some opened) :
    NeutralIn names [block] := by
  intro opened ho
  simp [openedAfter?, h opened ho]

/-- A container with neutral content is neutral. -/
theorem wrap {opening closing : Block} (ho : opening.opens = true) (hc : closing.closes = true)
    (hn : opening.name = closing.name) (ha : NeutralIn (opening.name :: names) a) :
    NeutralIn names (opening :: a ++ [closing]) := by
  intro opened hsub
  have hinner : openedAfter? (opening.name :: opened) a = some (opening.name :: opened) :=
    ha _ (List.cons_subset_cons _ hsub)
  rw [List.cons_append, openedAfter?, nextOpened?_opens opened ho, Option.bind_some,
    openedAfter?_append, hinner, Option.bind_some, hn]
  simp [openedAfter?, nextOpened?_closes opened hc]

end NeutralIn

/-! ### Balancing -/

/-- The names of open containers. -/
def frameNames (frames : List Frame) : List Text := frames.map (·.opening.name)

/-- Every frame has a tag that opens it, and its blocks are neutral in it and the frames around. -/
def SoundFrames : List Frame → Prop
  | [] => True
  | frame :: more =>
    frame.opening.opens = true ∧ NeutralIn (frameNames (frame :: more)) frame.inner.reverse ∧
      SoundFrames more

namespace Sweep

/-- What balancing keeps true while it takes blocks in. -/
structure Sound (sweep : Sweep) : Prop where
  outer : NeutralIn [] sweep.outer.reverse
  frames : SoundFrames sweep.frames

theorem Sound.add {sweep : Sweep} (h : sweep.Sound) {blocks : List Block}
    (hb : NeutralIn (frameNames sweep.frames) blocks.reverse) : (sweep.add blocks).Sound := by
  obtain ⟨outer, frames, notes⟩ := sweep
  cases frames with
  | nil =>
      refine ⟨?_, trivial⟩
      simp only [Sweep.add, List.reverse_append]
      exact h.outer.append hb
  | cons frame more =>
      obtain ⟨ho, hinner, hmore⟩ := h.frames
      refine ⟨h.outer, ho, ?_, hmore⟩
      rw [List.reverse_append]
      exact hinner.append hb

/-- The step that closes a container.  The blocks set free so far are neutral in the frames that are
left, so they may join the container that is closed. -/
theorem sound_closeThrough {closing : Block} (hc : closing.closes = true) {outer : List Block}
    (houter : NeutralIn [] outer.reverse) :
    ∀ (frames : List Frame) (notes : List Text) (loose : List Block), SoundFrames frames →
      NeutralIn (frameNames frames) loose.reverse →
      (closeThrough closing outer notes loose frames).Sound
  | [], notes, loose, _, hloose => by
      refine ⟨?_, trivial⟩
      simp only [closeThrough, List.reverse_append]
      exact houter.append hloose
  | frame :: more, notes, loose, ⟨ho, hinner, hmore⟩, hloose => by
      have hjoined : NeutralIn (frameNames (frame :: more)) (loose ++ frame.inner).reverse := by
        rw [List.reverse_append]
        exact hinner.append hloose
      unfold closeThrough
      split
      · next hn =>
        have hrest : Sound { outer, frames := more, notes } := ⟨houter, hmore⟩
        have hwrapped : NeutralIn (frameNames more)
            (frame.opening :: (loose ++ frame.inner).reverse ++ [closing]) :=
          hjoined.wrap ho hc (by simpa using hn)
        refine hrest.add ?_
        simpa using hwrapped
      · exact sound_closeThrough hc houter more _ _ hmore
          (hjoined.mono (List.subset_cons_self _ _))

theorem Sound.step {sweep : Sweep} (h : sweep.Sound) (block : Block) : (sweep.step block).Sound := by
  unfold Sweep.step
  split
  · next ho => exact ⟨h.outer, ho, NeutralIn.nil _, h.frames⟩
  · next ho =>
    have ho : block.opens = false := by simpa using ho
    split
    · next hc =>
      split
      · exact sound_closeThrough hc h.outer _ _ _ h.frames (NeutralIn.nil _)
      · next hopen =>
        -- No frame has the name of the tag, so no stack among the frames' names has it.
        have hfree : block.name ∉ frameNames sweep.frames := by
          intro hm
          obtain ⟨frame, hf, hn⟩ := List.mem_map.1 hm
          exact hopen (List.any_eq_true.2 ⟨frame, hf, by simp [hn]⟩)
        split
        · next hk =>
          exact h.add (NeutralIn.singleton fun opened hs =>
            nextOpened?_stray ho hk fun hm => hfree (hs hm))
        · exact ⟨h.outer, h.frames⟩
    · next hc =>
      exact h.add (NeutralIn.singleton fun opened _ =>
        nextOpened?_content opened ho (by simpa using hc))

theorem Sound.foldl {sweep : Sweep} (h : sweep.Sound) (blocks : List Block) :
    (blocks.foldl Sweep.step sweep).Sound := by
  induction blocks generalizing sweep with
  | nil => exact h
  | cons block blocks ih => exact ih (h.step block)

theorem sound_run (blocks : List Block) : (run blocks).Sound := by
  have hstart : Sound {} := ⟨NeutralIn.nil _, trivial⟩
  exact hstart.foldl blocks

end Sweep

/-- The blocks of frames that stay open are neutral once their tags are gone. -/
theorem neutralIn_flatMap_inner : ∀ {frames : List Frame}, SoundFrames frames →
    NeutralIn [] (frames.flatMap (·.inner)).reverse
  | [], _ => NeutralIn.nil _
  | frame :: more, ⟨_, hinner, hmore⟩ => by
      rw [List.flatMap_cons, List.reverse_append]
      exact (neutralIn_flatMap_inner hmore).append (hinner.mono (List.nil_subset _))

theorem nested_balance (blocks : List Block) : Nested (balance blocks) := by
  have h := Sweep.sound_run blocks
  unfold balance Sweep.remaining
  rw [List.reverse_append]
  exact (h.outer.append (neutralIn_flatMap_inner h.frames)) [] (List.nil_subset _)

end ApiReference
