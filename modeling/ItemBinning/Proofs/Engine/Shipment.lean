import ItemBinning.Proofs.Engine.Outcomes
import ItemBinning.Proofs.Engine.Versions

/-!
# What a bin sends

Whatever a processor answers, and whichever step of the completion fails, a bin that is
completed sends nothing, or it sends all that its session holds as the answer wants it.  No
session but that of the bin changes, and no bin changes what it holds.  For this it is enough
that the session holds no items but those of the bin.
-/

namespace ItemBinning

/-- An item that a verdict sends stems from one item of the bin. -/
theorem Verdict.mem_sends {verdict : Verdict} {relationship : String} {items : List Item}
    {item : Item} (isSent : item ∈ verdict.sends relationship items) :
    ∃ current ∈ items, item ∈ verdict.sends relationship [current] := by
  cases verdict with
  | processed attributes =>
      simp only [sends] at isSent ⊢
      split at isSent
      · rename_i success
        obtain ⟨current, member, rfl⟩ := List.mem_map.1 isSent
        exact ⟨current, member, by simp [success]⟩
      · cases isSent
  | failed =>
      simp only [sends] at isSent ⊢
      split at isSent
      · rename_i failure
        exact ⟨item, isSent, by simp [failure]⟩
      · cases isSent
  | rolledBack => cases isSent

namespace Depot

variable {bin : BinId} {sent : String → List Item} {first second third start before after : Depot}

/-- No session changed but that of a bin, no bin changed what it holds, and the sinks received
certain items. -/
structure Shipped (bin : BinId) (sent : String → List Item) (before after : Depot) : Prop where
  bins : ∀ other, (after.bin other).contents = (before.bin other).contents ∧
    (after.bin other).session = (before.bin other).session
  shelf : after.shelf = before.shelf
  ready : after.ready = before.ready
  sessions : ∀ other, other ≠ (before.bin bin).session →
    after.flow.session other = before.flow.session other
  sinks : after.flow.sinks = before.flow.sinks.mapValues fun relationship received =>
    received ++ sent relationship

/-- Nothing is sent. -/
abbrev Quiet (bin : BinId) (before after : Depot) : Prop :=
  before.Shipped bin (fun _ => []) after

theorem Quiet.of_sinks
    (bins : ∀ other, (after.bin other).contents = (before.bin other).contents ∧
      (after.bin other).session = (before.bin other).session)
    (shelf : after.shelf = before.shelf) (ready : after.ready = before.ready)
    (sessions : ∀ other, other ≠ (before.bin bin).session →
      after.flow.session other = before.flow.session other)
    (sinks : after.flow.sinks = before.flow.sinks) : before.Quiet bin after := by
  refine ⟨bins, shelf, ready, sessions, ?_⟩
  simp only [List.append_nil, Table.mapValues_self]
  exact sinks

theorem Quiet.of_flow {flow : Flow}
    (sessions : ∀ other, other ≠ (before.bin bin).session →
      flow.session other = before.flow.session other)
    (sinks : flow.sinks = before.flow.sinks) : before.Quiet bin { before with flow } :=
  .of_sinks (fun _ => ⟨rfl, rfl⟩) rfl rfl sessions sinks

theorem Quiet.refl (depot : Depot) : depot.Quiet bin depot :=
  .of_flow (fun _ _ => rfl) rfl

/-- What is sent after nothing was sent is all that is sent. -/
theorem Quiet.trans (quiet : first.Quiet bin second) (shipped : second.Shipped bin sent third) :
    first.Shipped bin sent third where
  bins other := ⟨(shipped.bins other).1.trans (quiet.bins other).1,
    (shipped.bins other).2.trans (quiet.bins other).2⟩
  shelf := shipped.shelf.trans quiet.shelf
  ready := shipped.ready.trans quiet.ready
  sessions other differs :=
    (shipped.sessions other ((quiet.bins bin).2 ▸ differs)).trans (quiet.sessions other differs)
  sinks := by
    rw [shipped.sinks, quiet.sinks, Table.mapValues_mapValues]
    simp only [List.append_nil]

theorem Shipped.trans (shipped : first.Shipped bin sent second)
    (quiet : second.Quiet bin third) : first.Shipped bin sent third where
  bins other := ⟨(quiet.bins other).1.trans (shipped.bins other).1,
    (quiet.bins other).2.trans (shipped.bins other).2⟩
  shelf := quiet.shelf.trans shipped.shelf
  ready := quiet.ready.trans shipped.ready
  sessions other differs := (quiet.sessions other ((shipped.bins bin).2 ▸ differs)).trans
    (shipped.sessions other differs)
  sinks := by
    rw [quiet.sinks, shipped.sinks, Table.mapValues_mapValues]
    simp only [List.append_nil]

/-- While a bin is in hand, the other bins hold what they held. -/
theorem Shipped.matched {property : Flow → Prop} {session : SessionId} {rest : List BinId}
    {pairs : Item → Item → Prop} (shipped : before.Shipped bin sent after)
    (inHand : before.InHand property [session] bin session rest)
    (matched : before.Matched pairs) : after.Matched pairs := by
  intro other stored id current found
  have wasStored : before.Stored other := by
    unfold Stored at stored ⊢
    rwa [shipped.shelf, shipped.ready] at stored
  have apart : (before.bin other).session ≠ (before.bin bin).session := by
    rw [inHand.owner]
    exact fun same => inHand.notOwned ⟨other, wasStored, same⟩
  unfold binSession at found
  rw [(shipped.bins other).2, shipped.sessions _ apart] at found
  rw [(shipped.bins other).1]
  exact matched other wasStored id current found

theorem Shipped.received {expected : String → Item → Prop}
    (shipped : before.Shipped bin sent after) (received : before.Received expected)
    (expects : ∀ relationship, ∀ item ∈ sent relationship, expected relationship item) :
    after.Received expected := by
  intro relationship items found item member
  rw [shipped.sinks, Table.find?_mapValues] at found
  obtain ⟨early, isEarly, rfl⟩ := Option.map_eq_some_iff.1 found
  rcases List.mem_append.1 member with old | new
  · exact received relationship early isEarly item old
  · exact expects relationship item new

/-- All that a verdict on the bin sends was sent, or nothing. -/
def Ships (bin : BinId) (verdict : Verdict) (before after : Depot) : Prop :=
  before.Quiet bin after ∨ before.Shipped bin
    (fun relationship => verdict.sends relationship (before.binSession bin).items) after

theorem Ships.exists_sent {verdict : Verdict} (ships : before.Ships bin verdict after) :
    ∃ sent, before.Shipped bin sent after ∧ ∀ relationship,
      sent relationship ⊆ verdict.sends relationship (before.binSession bin).items := by
  rcases ships with quiet | shipped
  · exact ⟨_, quiet, fun _ => List.nil_subset _⟩
  · exact ⟨_, shipped, fun _ => List.Subset.refl _⟩

theorem Ships.keeps {α : Type} {verdict : Verdict} {act : Act Depot α}
    (quiet : ∀ depot : Depot, depot.Quiet bin (act depot).2) :
    act.Keeps (before.Ships bin verdict) := by
  apply Act.Keeps.of_final
  rintro depot (still | shipped)
  · exact .inl (still.trans (quiet depot))
  · exact .inr (shipped.trans (quiet depot))

theorem count_quiet (bin : BinId) (change : Counters → Counters) (depot : Depot) :
    depot.Quiet bin (count change depot).2 :=
  .of_sinks (fun _ => ⟨rfl, rfl⟩) rfl rfl (fun _ _ => rfl) rfl

theorem mark_quiet (bin : BinId) (target : BinState) (depot : Depot) :
    depot.Quiet bin (mark bin target depot).2 := by
  by_cases follows : target ∈ (depot.bin bin).state.successors
  · rw [mark_eq follows]
    refine .of_sinks (fun other => ?_) rfl rfl (fun _ _ => rfl) rfl
    rw [bin_setBin]
    split
    · rename_i same
      rw [same]
      exact ⟨rfl, rfl⟩
    · exact ⟨rfl, rfl⟩
  · rw [mark_error follows]
    exact .refl depot

theorem flow_mark (bin : BinId) (target : BinState) (depot : Depot) :
    (mark bin target depot).2.flow = depot.flow := by
  by_cases follows : target ∈ (depot.bin bin).state.successors
  · rw [mark_eq follows]
    rfl
  · rw [mark_error follows]

theorem flow_discard (bin : BinId) (depot : Depot) :
    (discard bin depot).2.flow = depot.flow.returned (depot.bin bin).session :=
  flow_mark bin .rolledBack { depot with flow := depot.flow.returned (depot.bin bin).session }

theorem discard_quiet (bin : BinId) (depot : Depot) : depot.Quiet bin (discard bin depot).2 :=
  Quiet.trans (.of_flow (fun _ differs => depot.flow.session_returned_of_ne differs) rfl)
    (mark_quiet bin .rolledBack
      { depot with flow := depot.flow.returned (depot.bin bin).session })

end Depot

namespace Engine

open Depot

variable {bin : BinId} {session : SessionId} {start : Depot}

/-- As long as annotating goes on, it reaches each item, and no other item of the session. -/
theorem forEach_annotates (isOwner : (start.bin bin).session = session)
    (attributes : Attributes) (items : List Item) :
    (Act.forEach items fun item => do
      let _ ← onFlow (Flow.annotate session item attributes)
      pure ()).Meets (· = start)
      (fun _ depot => start.Quiet bin depot ∧ (depot.flow.session session).current =
        ((start.flow.session session).annotated (items.map Item.id) attributes).current)
      fun _ => start.Quiet bin := by
  induction items generalizing start with
  | nil =>
      refine Act.Meets.pure ?_
      rintro _ rfl
      rw [List.map_nil, Session.annotated_nil]
      exact ⟨.refl _, rfl⟩
  | cons item rest ih =>
      rintro start rfl
      unfold Act.forEach
      rw [bind_assoc]
      rcases Flow.annotate_cases session item attributes start.flow with
        ⟨_, run⟩ | ⟨current, found, run⟩
      · rw [Act.bind_of_error (onFlow_eq run)]
        exact .refl start
      · obtain ⟨next, isNext⟩ : ∃ next, next = { start with
            flow := start.flow.setSession session { start.flow.session session with
              current := (start.flow.session session).current.put item.id
                (current.withAttributes attributes) } } := ⟨_, rfl⟩
        have annotated : start.Quiet bin next := by
          rw [isNext]
          refine .of_flow (fun other differs => ?_) rfl
          rw [Flow.session_setSession, if_neg (isOwner ▸ differs)]
        have versions : ((next.flow.session session).annotated (rest.map Item.id)
            attributes).current = ((start.flow.session session).annotated
              (item.id :: rest.map Item.id) attributes).current := by
          rw [isNext, Flow.session_setSession_self, Session.annotated_put _ attributes found]
        rw [Act.bind_of_ok (onFlow_eq run), ← isNext]
        refine (@ih next ((annotated.bins bin).2.trans isOwner)).weaken (fun _ => id) ?_
          (fun _ _ => annotated.trans) next rfl
        exact fun _ depot later => ⟨annotated.trans later.1, later.2.trans versions⟩

theorem annotateAll_annotates (bin : BinId) (attributes : Attributes) (start : Depot) :
    (annotateAll bin attributes).Meets (· = start)
      (fun _ depot => start.Quiet bin depot ∧ (depot.binSession bin).current =
        ((start.binSession bin).annotated ((start.bin bin).contents.map Item.id)
          attributes).current)
      fun _ => start.Quiet bin := by
  apply Act.Meets.reading
  refine (forEach_annotates rfl attributes (start.bin bin).contents).weaken (fun _ => id) ?_
    fun _ _ => id
  rintro _ depot ⟨quiet, versions⟩
  refine ⟨quiet, ?_⟩
  unfold binSession
  rw [(quiet.bins bin).2]
  exact versions

/-- Routing the items of a bin sends nothing, and if it succeeds, all of them are routed. -/
theorem route_quiet (isOwner : (start.bin bin).session = session) (items : List Item)
    (relationship : String) :
    (onFlow (Flow.route session items relationship)).Meets (· = start)
      (fun _ depot => (start.Quiet bin depot ∧
        (depot.flow.session session).current = (start.flow.session session).current) ∧
          ∀ item ∈ items, depot.flow.Routed session item.id relationship)
      fun _ => start.Quiet bin := by
  have keeps : (onFlow (Flow.route session items relationship)).Meets (· = start)
      (fun _ depot => start.Quiet bin depot ∧
        (depot.flow.session session).current = (start.flow.session session).current)
      fun _ depot => start.Quiet bin depot ∧
        (depot.flow.session session).current = (start.flow.session session).current := by
    apply Act.Meets.of_final
    rintro start rfl
    obtain ⟨sinks, others, current⟩ := (Flow.route_keeps start.flow session items
      relationship).final ⟨rfl, fun _ _ => rfl, rfl⟩
    exact ⟨.of_flow (fun other differs => others other (isOwner ▸ differs)) sinks, current⟩
  exact (keeps.and (Depot.route_routes items relationship)).weaken (fun _ => id) (fun _ _ => id)
    fun _ _ failed => failed.1.1

/-- A session that holds no items but those of its bin is delivered as a whole or not at
all. -/
theorem deliver_ships
    (within : (start.binSession bin).ids ⊆ (start.bin bin).contents.map Item.id)
    (relationship : String) :
    (deliver bin relationship).Meets (· = start)
      (fun _ => start.Shipped bin fun name =>
        if name = relationship then (start.binSession bin).items else [])
      fun _ => start.Quiet bin := by
  apply Act.Meets.reading
  obtain ⟨session, isOwner⟩ : ∃ session, (start.bin bin).session = session := ⟨_, rfl⟩
  unfold binSession at within ⊢
  rw [isOwner] at within ⊢
  refine (route_quiet isOwner (start.bin bin).contents relationship).bind fun _ => ?_
  rintro routed ⟨⟨quiet, versions⟩, routes⟩
  have items : (routed.flow.session session).items = (start.flow.session session).items :=
    congrArg Table.values versions
  have all : ∀ id ∈ (routed.flow.session session).ids,
      routed.flow.Routed session id relationship := by
    unfold Session.ids
    rw [versions]
    intro id held
    obtain ⟨item, member, rfl⟩ := List.mem_map.1 (within held)
    exact routes item member
  rcases Flow.commit_cases session routed.flow with ⟨_, run⟩ | ⟨_, run⟩ <;> rw [onFlow_eq run]
  · exact quiet
  · refine quiet.trans ⟨fun _ => ⟨rfl, rfl⟩, rfl, rfl, ?_, ?_⟩
    · rw [(quiet.bins bin).2, isOwner]
      exact fun other differs => routed.flow.session_delivered_of_ne differs
    · dsimp only
      rw [Flow.sinks_delivered_of_all all, items]

theorem giveUp_ships (verdict : Verdict) (activation : Activation) :
    (giveUp bin activation).Keeps (start.Ships bin verdict) :=
  (Ships.keeps (discard_quiet bin)).bind fun _ =>
    (Ships.keeps (count_quiet bin _)).bind fun _ => Act.Keeps.pure _

variable (within : (start.binSession bin).ids ⊆ (start.bin bin).contents.map Item.id)
include within

/-- What is delivered to success are the versions of the session with the attributes put
over them. -/
theorem annotated_ships (attributes : Attributes) :
    (do
      annotateAll bin attributes
      deliver bin successRelationship).Meets (· = start)
      (fun _ => start.Shipped bin fun name => if name = successRelationship then
        (start.binSession bin).items.map (Item.withAttributes · attributes) else [])
      fun _ => start.Quiet bin := by
  refine (annotateAll_annotates bin attributes start).bind fun _ => ?_
  rintro depot ⟨quiet, versions⟩
  have ids : (depot.binSession bin).ids = (start.binSession bin).ids :=
    (congrArg Table.keys versions).trans (Session.ids_annotated _ _)
  have items : (depot.binSession bin).items =
      (start.binSession bin).items.map (·.withAttributes attributes) :=
    (congrArg Table.values versions).trans (Session.items_annotated attributes within)
  have withinStill : (depot.binSession bin).ids ⊆ (depot.bin bin).contents.map Item.id := by
    rw [ids, (quiet.bins bin).1]
    exact within
  have ships := (deliver_ships withinStill successRelationship).weaken (fun _ => id)
    (fun _ _ => quiet.trans) fun _ _ => quiet.trans
  rw [items] at ships
  exact ships depot rfl

theorem finalise_ships (outcome : Option Outcome) :
    (finalise bin outcome).Meets (· = start)
      (fun _ => start.Ships bin (.of (.ok outcome)))
      fun _ => start.Ships bin (.of (.ok outcome)) := by
  have stays (depot : Depot) (same : depot = start) :
      start.Ships bin (.of (.ok outcome)) depot :=
    same ▸ .inl (.refl depot)
  cases outcome with
  | none => exact Act.Meets.fail stays
  | some outcome =>
      unfold finalise
      dsimp only
      split
      · have looks : (do
            let held ← Act.read fun depot : Depot => (depot.binSession bin).current.size
            if held = 0 then pure () else Act.fail (.unfinishedClaim held) :
            Act Depot Unit).Keeps (start.Ships bin (.of (.ok (some outcome)))) := by
          refine (Act.Keeps.read _).bind fun held => ?_
          split
          · exact Act.Keeps.pure ()
          · exact Act.Keeps.fail _
        exact looks.weaken stays (fun _ _ => id) fun _ _ => id
      · exact (annotated_ships within outcome.attributes).weaken (fun _ => id)
          (fun _ _ => .inr) fun _ _ => .inl

/-- Whatever the processor answered, the bin sends all that the answer stands for, or nothing. -/
theorem settle_ships (answer : Except Fault (Option Outcome)) (activation : Activation) :
    (settle bin answer activation).Meets (· = start) (fun _ => start.Ships bin (.of answer))
      fun _ => start.Ships bin (.of answer) := by
  have completed (noted : Activation) (change : Counters → Counters) :
      (do mark bin .processed; count change; pure noted : Act Depot Activation).Keeps
        (start.Ships bin (.of answer)) :=
    (Ships.keeps (mark_quiet bin .processed)).bind fun _ =>
      (Ships.keeps (count_quiet bin change)).bind fun _ => Act.Keeps.pure _
  have stays (depot : Depot) (same : depot = start) : start.Ships bin (.of answer) depot :=
    same ▸ .inl (.refl depot)
  unfold settle
  split
  · rename_i outcome
    refine (finalise_ships within outcome).attempt.bind fun finalised => ?_
    cases finalised with
    | ok => exact completed _ _
    | error => exact giveUp_ships _ activation
  · have delivers : (deliver bin failureRelationship).Meets (· = start)
        (fun _ => start.Ships bin (.of (.error .recoverable)))
        fun _ => start.Ships bin (.of (.error .recoverable)) :=
      (deliver_ships within failureRelationship).weaken (fun _ => id) (fun _ _ => .inr)
        fun _ _ => .inl
    refine delivers.attempt.bind fun delivered => ?_
    cases delivered with
    | ok => exact completed _ _
    | error fault =>
        dsimp only
        split
        · exact giveUp_ships _ activation
        · exact Act.Keeps.fail _
  · exact Act.Meets.weaken (giveUp_ships _ activation) stays (fun _ _ => id) fun _ _ => id

end Engine

end ItemBinning
