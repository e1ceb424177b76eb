import ItemBinning.Proofs.Engine.Chunks
import ItemBinning.Proofs.Engine.DrainRules
import ItemBinning.Proofs.Engine.Migration

/-!
# What binning has no part in

The engine moves items and bins; the clock, the numbers of bundles and items, the tallies
and the moves change only by what hooks do.  A property of those outlives all that the
engine does by itself.
-/

namespace ItemBinning

namespace Depot

/-- The property does not depend on the flow, the bins, where they are, and the counters. -/
def Aloof (kept : Depot → Prop) : Prop :=
  ∀ (depot : Depot) flow bins shelf ready counters handled, kept depot →
    kept { depot with flow, bins, shelf, ready, counters, handled }

variable {kept : Depot → Prop} (aloof : Aloof kept)
include aloof

theorem onFlow_aloof {α : Type} (act : Act Flow α) : (onFlow act).Keeps kept :=
  Act.Keeps.of_final fun _ holds => aloof _ _ _ _ _ _ _ holds

theorem modifyShelf_aloof (change : Shelf → Shelf) : (modifyShelf change).Keeps kept :=
  Act.Meets.modify fun _ holds => aloof _ _ _ _ _ _ _ holds

theorem count_aloof (change : Counters → Counters) : (count change).Keeps kept :=
  Act.Meets.modify fun _ holds => aloof _ _ _ _ _ _ _ holds

theorem enqueue_aloof (bins : List BinId) : (enqueue bins).Keeps kept :=
  Act.Meets.modify fun _ holds => aloof _ _ _ _ _ _ _ holds

theorem mark_aloof (bin : BinId) (target : BinState) : (mark bin target).Keeps kept := by
  refine (Act.Keeps.read _).bind fun held => (Act.Keeps.ofExcept _).bind fun moved => ?_
  exact Act.Meets.modify fun _ holds => aloof _ _ _ _ _ _ _ holds

theorem markReady_aloof (bin : BinId) (reason : ReadyReason) :
    (markReady bin reason).Keeps kept :=
  (mark_aloof aloof bin .ready).bind fun _ =>
    Act.Meets.modify fun _ holds => aloof _ _ _ _ _ _ _ holds

theorem discard_aloof (bin : BinId) : (discard bin).Keeps kept :=
  (Act.Keeps.read _).bind fun _ => (onFlow_aloof aloof _).bind fun _ =>
    mark_aloof aloof bin .rolledBack

theorem createBin_aloof (session : SessionId) (bounds : Bounds) (group : Value) :
    (createBin session bounds group).Keeps kept :=
  Act.Keeps.of_final fun _ holds => aloof _ _ _ _ _ _ _ holds

theorem offerTo_aloof (bin : BinId) (item : Item) (source : SessionId) :
    (offerTo bin item source).Keeps kept := by
  apply Act.Keeps.of_final
  intro depot holds
  have outcome := offerTo_outcome bin item source depot
  generalize offerTo bin item source depot = result at outcome
  cases outcome with
  | refused => exact holds
  | turnedDown | kept | unweighed | taken => exact aloof depot _ _ _ _ _ _ holds

end Depot

namespace Shelf

open Depot

variable {kept : Depot → Prop} (aloof : Aloof kept)
include aloof

theorem offerToFirst_aloof (item : Item) (session : SessionId) (bins : List BinId) :
    (offerToFirst item session bins).Keeps kept := by
  induction bins with
  | nil => exact Act.Keeps.pure _
  | cons bin rest ih =>
      refine (offerTo_aloof aloof bin item session).bind fun taken => ?_
      split
      · exact Act.Keeps.pure _
      · exact ih

theorem openBinFor_aloof (group : Value) (key : Key) (item : Item) (session : SessionId) :
    (openBinFor group key item session).Keeps kept := by
  refine (Act.Keeps.read _).bind fun bounds => (onFlow_aloof aloof _).bind fun owner => ?_
  refine (createBin_aloof aloof owner bounds group).bind fun bin => ?_
  refine (offerTo_aloof aloof bin item session).bind fun taken => ?_
  split
  · exact (modifyShelf_aloof aloof _).bind fun _ => Act.Keeps.pure _
  · exact Act.Keeps.pure _

theorem place_aloof (group : Value) (key : Key) (item : Item) (session : SessionId) :
    (place group key item session).Keeps kept := by
  refine (Act.Keeps.read _).bind fun bins => ?_
  refine (offerToFirst_aloof aloof item session bins).bind fun taken => ?_
  split
  · exact Act.Keeps.pure _
  · refine (Act.Keeps.look _).bind fun full => ?_
    split
    · exact Act.Keeps.pure _
    · exact openBinFor_aloof aloof group key item session

theorem offer_aloof (group : Value) (items : List Item) (session : SessionId) :
    (offer group items session).Keeps kept :=
  offer_keeps fun key _ item _ => place_aloof aloof group key item session

end Shelf

namespace Engine

open Depot

variable {kept : Depot → Prop} (aloof : Aloof kept) {engine : Engine}
include aloof

theorem queueUnbound_aloof (group : Value) (session : SessionId) (item : Item) :
    (queueUnbound group session item).Keeps kept := by
  refine (onFlow_aloof aloof _).bind fun owner => ?_
  refine (createBin_aloof aloof owner _ group).bind fun bin => ?_
  refine (offerTo_aloof aloof bin item session).bind fun _ => ?_
  exact (markReady_aloof aloof bin .unbound).bind fun _ => enqueue_aloof aloof [bin]

theorem intakeRules_aloof
    (preprocess : ∀ item session, (engine.hooks.preprocess item session).run.Keeps kept)
    (groupKey : ∀ item, (engine.hooks.groupKey item).run.Keeps kept) :
    IntakeRules engine kept (fun _ => kept) fun _ => True where
  pulled := by
    refine Act.Meets.bind (onFlow_aloof aloof _) fun session => ?_
    refine Act.Meets.bind (onFlow_aloof aloof _) fun items => ?_
    exact Act.Meets.pure fun _ holds => ⟨fun _ => holds, holds, fun _ _ => trivial⟩
  preprocessed session item _ := (preprocess item session).weaken (fun _ => id)
    (fun _ _ holds => ⟨holds, fun _ _ => trivial⟩) fun _ _ => id
  keyed _ := groupKey
  routed _ _ := onFlow_aloof aloof _
  counted _ := count_aloof aloof
  offered session group items _ := Shelf.offer_aloof aloof group items session
  queued session group item _ := queueUnbound_aloof aloof group session item
  committed _ := onFlow_aloof aloof _
  returned _ := onFlow_aloof aloof _

theorem drainRules_aloof {hooks : Hooks} {bin : BinId}
    (process : (hooks.process bin).run.Keeps kept) :
    DrainRules hooks bin (fun _ => True) kept kept where
  owned _ _ := trivial
  noted _ holds := aloof _ _ _ _ _ _ _ holds
  processed := process
  annotated _ _ _ := onFlow_aloof aloof _
  routed _ _ _ := onFlow_aloof aloof _
  committed _ _ := onFlow_aloof aloof _
  returned _ _ := onFlow_aloof aloof _
  emptied _ holds _ := holds
  marked := mark_aloof aloof bin
  counted := count_aloof aloof

theorem settle_aloof {hooks : Hooks} {bin : BinId} (process : (hooks.process bin).run.Keeps kept)
    (answer : Except Fault (Option Outcome)) (activation : Activation) :
    (settle bin answer activation).Keeps kept :=
  Act.Meets.weaken ((drainRules_aloof aloof process).settle answer activation) (fun _ => id)
    (fun _ _ => And.left) fun _ _ => id

theorem handle_aloof {hooks : Hooks} {bin : BinId} (process : (hooks.process bin).run.Keeps kept)
    (activation : Activation) : (handle hooks bin activation).Keeps kept :=
  Act.Meets.weaken ((drainRules_aloof aloof process).handle activation) (fun _ => id)
    (fun _ _ => And.left) fun _ _ => id

theorem migrateBins_aloof {depot : Depot} (arranged : depot.Arranged) (holds : kept depot) :
    kept (migrateBins.final depot) := by
  obtain ⟨left, between, counters, run, departed, _⟩ := migrateBins_spec arranged
  unfold Act.final
  rw [run]
  unfold moved
  rw [departed.marked.rest]
  exact aloof depot _ _ _ _ _ _ holds

theorem reset_aloof : reset.Keeps kept := by
  have discards (bins : List BinId) : (Act.forEach bins discard).Keeps kept :=
    Act.Keeps.forEach fun bin _ => discard_aloof aloof bin
  have purges : Shelf.purge.Keeps kept :=
    (Act.Keeps.read _).bind fun bins => (discards bins).bind fun _ =>
      (modifyShelf_aloof aloof _).bind fun _ => Act.Keeps.pure _
  have dequeues : dequeueAll.Keeps kept :=
    Act.Keeps.of_final fun _ holds => aloof _ _ _ _ _ _ _ holds
  exact purges.bind fun _ => dequeues.bind fun queued => discards queued

end Engine

end ItemBinning
