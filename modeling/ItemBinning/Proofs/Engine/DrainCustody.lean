import ItemBinning.Proofs.Engine.Custody
import ItemBinning.Proofs.Engine.DrainRules

/-!
# Custody while the queue is drained

A bin that was taken off the queue is in hand until it is completed: its session is
in use, while neither the shelf nor the queue holds the bin.  Whatever the processor
does and answers, and whichever step of the completion fails, the session is empty
in the end, so that the bin may be forgotten.
-/

namespace ItemBinning

namespace Depot

/-- A bin was taken off the queue, of which the others are left.  The items of the
sessions in use are in the care of whoever holds the bin. -/
structure InHand (property : Flow → Prop) (inUse : List SessionId) (bin : BinId)
    (session : SessionId) (rest : List BinId) (depot : Depot) : Prop where
  sound : depot.Sound property inUse
  queue : depot.ready = rest
  isBin : bin < depot.bins.next
  notStored : ¬ depot.Stored bin
  owner : (depot.bin bin).session = session

variable {property : Flow → Prop} {inUse : List SessionId} {bin : BinId}
  {session : SessionId} {rest : List BinId} {before after depot : Depot}

theorem InHand.undisturbed (inHand : before.InHand property inUse bin session rest)
    (undisturbed : before.Undisturbed after) (sound : after.Sound property inUse) :
    after.InHand property inUse bin session rest where
  sound := sound
  queue := undisturbed.ready.trans inHand.queue
  isBin := undisturbed.next.symm ▸ inHand.isBin
  notStored stored := inHand.notStored ((undisturbed.stored bin).1 stored)
  owner := (undisturbed.matching bin).session.trans inHand.owner

theorem InHand.release (inHand : depot.InHand property [session] bin session rest)
    (empty : (depot.flow.session session).ids = []) :
    depot.InHand property [] bin session rest :=
  { inHand with sound := inHand.sound.release (.inl empty) }

theorem Sound.take (sound : depot.Sound property []) (queue : depot.ready = bin :: rest) :
    InHand property [(depot.bin bin).session] bin (depot.bin bin).session rest
      { depot with ready := rest } := by
  have queued : ∀ other ∈ bin :: rest, other ∈ depot.ready := fun other => (queue ▸ ·)
  have distinct := sound.queued.distinct
  rw [queue, List.nodup_cons] at distinct
  have arranged : Arranged { depot with ready := rest } :=
    sound.arranged.of_same rfl rfl (Nat.le_refl _)
  refine ⟨⟨sound.flow, sound.whole, arranged, ⟨?_, ?_, distinct.2⟩, sound.weighed, ?_⟩, rfl,
    sound.queued.isBin bin (queued bin (by simp)), ?_, rfl⟩
  · exact fun other later =>
      sound.queued.isBin other (queued other (List.mem_cons_of_mem _ later))
  · exact fun other later =>
      sound.queued.ready other (queued other (List.mem_cons_of_mem _ later))
  · intro session id held
    rcases sound.attended session id held with used | ⟨other, stored, same⟩ | moved
    · cases used
    · rcases stored with onShelf | isQueued
      · exact .inr (.inl ⟨other, .inl onShelf, same⟩)
      · rw [queue] at isQueued
        rcases List.mem_cons.1 isQueued with rfl | later
        · exact .inl (List.mem_singleton.2 same.symm)
        · exact .inr (.inl ⟨other, .inr later, same⟩)
    · exact .inr (.inr moved)
  · rintro (onShelf | later)
    · exact sound.queued.not_mem_bins sound.arranged (queued bin (by simp)) onShelf
    · exact distinct.1 later

/-- An operation of a flow that brings no items into other sessions leaves the bin in
hand. -/
theorem onFlow_inHand {α : Type} {act : Act Flow α} (carried : Flow.Carried property)
    (carries : ∀ {other : Flow → Prop}, Flow.Carried other → act.Keeps other)
    (gains : ∀ start, act.Keeps (Flow.Gains inUse start)) :
    (onFlow act).Keeps (InHand property inUse bin session rest) := by
  apply Act.Keeps.of_final
  intro depot inHand
  refine inHand.undisturbed (.of_same rfl rfl rfl rfl ?_)
    (Act.Meets.final (onFlow_sound carried carries gains) inHand.sound)
  exact Act.Meets.final (carries (Flow.carried_sessions depot.flow.sessions.next))
    (Nat.le_refl _)

theorem count_inHand (change : Counters → Counters) :
    (count change).Keeps (InHand property inUse bin session rest) :=
  Act.Keeps.of_final fun _ inHand =>
    inHand.undisturbed (.of_same rfl rfl rfl rfl (Nat.le_refl _))
      (inHand.sound.of_same rfl rfl rfl rfl rfl)

theorem mark_inHand (target : BinState) :
    (mark bin target).Keeps (InHand property inUse bin session rest) := by
  apply Act.Keeps.of_final
  intro depot inHand
  refine inHand.undisturbed ?_ (mark_sound target inHand.isBin inHand.notStored inHand.sound)
  by_cases follows : target ∈ (depot.bin bin).state.successors
  · rw [mark_eq follows]
    exact .setBin depot inHand.isBin inHand.notStored ⟨rfl, rfl, rfl, rfl⟩
  · rw [mark_error follows]
    exact .refl depot

theorem script_inHand {α : Type} {script : Script α} {mayPut : List Item → Prop}
    (uses : script.Uses (Call.Permitted mayPut (some bin))) (carried : Flow.Carried property)
    (putKeeps : PutKeeps property mayPut) :
    script.run.Keeps (InHand property inUse bin session rest) := by
  apply Act.Keeps.of_final
  intro depot inHand
  obtain ⟨undisturbed, sound⟩ := Act.Meets.final (uses.sound carried putKeeps (by
    rintro _ ⟨⟩
    exact ⟨inHand.isBin, inHand.notStored⟩)) ⟨Undisturbed.refl depot, inHand.sound⟩
  exact inHand.undisturbed undisturbed sound

end Depot

namespace Engine

open Depot

variable {property : Flow → Prop} {hooks : Hooks} {mayPut : List Item → Prop}

/-- The rules for a bin in hand: once its session is empty it need not be in use. -/
theorem drainRules (carried : Flow.Carried property) (putKeeps : PutKeeps property mayPut)
    {bin : BinId} (process : (hooks.process bin).Uses (Call.Permitted mayPut (some bin)))
    (session : SessionId) (rest : List BinId) :
    DrainRules hooks bin (· = session) (InHand property [session] bin session rest)
      (InHand property [] bin session rest) where
  owned _ inHand := inHand.owner
  noted _ inHand := inHand.undisturbed (.of_same rfl rfl rfl rfl (Nat.le_refl _))
    (inHand.sound.of_same rfl rfl rfl rfl rfl)
  processed := script_inHand process carried putKeeps
  annotated number item attributes := onFlow_inHand carried
    (·.annotate number item attributes)
    fun start => Flow.annotate_gains start number item attributes
  routed number items relationship := onFlow_inHand carried
    (·.route number items relationship)
    fun start => Flow.route_gains start number items relationship
  committed := by
    rintro number rfl
    have kept : (onFlow (Flow.commit number)).Keeps
        (InHand property [number] bin number rest) :=
      onFlow_inHand carried (·.commit number) fun start => Flow.commit_gains start number
    have empties := (onFlow_meets (Flow.commit_faults number)).weaken
      (fun depot (_ : depot.InHand property [number] bin number rest) => trivial)
      (fun _ _ => id) fun _ _ => id
    exact (kept.and empties).weaken (fun _ => id) (fun _ _ holds => holds.1.release holds.2)
      fun _ _ => And.left
  returned := by
    rintro number rfl
    apply Act.Meets.of_final
    intro depot inHand
    have kept : (onFlow (Flow.rollBack number) depot).2.InHand property [number] bin
        number rest :=
      Act.Meets.final (onFlow_inHand carried (·.rollBack number)
        fun start => Flow.rollBack_gains start number) inHand
    exact kept.release (Flow.ids_returned depot.flow number)
  emptied depot inHand empty := by
    apply inHand.release
    rw [← inHand.owner]
    exact empty
  marked target := mark_inHand target
  counted change := count_inHand change

/-- Draining the queue leaves no item behind, also if it stops at a fault. -/
theorem drainBins_sound (carried : Flow.Carried property)
    (putKeeps : PutKeeps property mayPut)
    (process : ∀ bin, (hooks.process bin).Uses (Call.Permitted mayPut (some bin)))
    (queue : List BinId) (activation : Activation) :
    (drainBins hooks queue activation).Meets
      (fun depot => depot.Sound property [] ∧ depot.ready = queue)
      (fun _ depot => depot.Sound property []) fun _ => Sound property [] := by
  have drained := @drainBins_of_rules hooks
    (fun queue depot => depot.Sound property [] ∧ depot.ready = queue)
    (by
      rintro bin rest depot ⟨sound, isQueue⟩
      exact ⟨_, _, _, drainRules carried putKeeps (process bin) (depot.bin bin).session rest,
        sound.take isQueue, fun _ inHand => ⟨inHand.sound, inHand.queue⟩⟩) queue activation
  exact drained.weaken (fun _ => id) (fun _ _ holds => holds.1.1)
    fun _ _ ⟨_, holds⟩ => holds.1

end Engine

end ItemBinning
