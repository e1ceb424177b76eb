import ItemBinning.Proofs.Engine.Aloofness
import ItemBinning.Proofs.Engine.BinOrder
import ItemBinning.Proofs.Hook.Bundling

/-!
# What delivered bundles are tagged with

The bundle processor reads the count and the size off the bin, while the items are delivered
from its session.  Over a whole run the tags of a delivered item still describe its bundle:
so many items with its id were delivered, so large are they together, and all of them were
given the group of the bin when they were given a group for the last time.  No two bundles
get the same number, and a bundle is delivered as a whole, so later bundles and the chunks
that are pulled later change nothing of this.
-/

namespace ItemBinning

open Decimal (integerText)
open Depot

/-- The key that an item of the id was given last. -/
def lastKey? (log : List Load) (id : String) : Option Key :=
  (log.reverse.find? fun load => load.2.id = id).map Prod.fst

section Log

variable {log chunk : List Load}

theorem lastKey?_append {id : String} (absent : id ∉ chunk.map fun load => load.2.id) :
    lastKey? (log ++ chunk) id = lastKey? log id := by
  have none : (chunk.reverse.find? fun load => load.2.id = id) = none := by
    rw [List.find?_eq_none]
    intro load member same
    exact absent (List.mem_map.2 ⟨load, List.mem_reverse.1 member, of_decide_eq_true same⟩)
  unfold lastKey?
  rw [List.reverse_append, List.find?_append, none, Option.none_or]

/-- The keys of a chunk of different items are the last ones. -/
theorem lastKey?_append_of_mem {load : Load} (member : load ∈ chunk)
    (distinct : (chunk.map fun load => load.2.id).Nodup) :
    lastKey? (log ++ chunk) load.2.id = some load.1 := by
  obtain ⟨last, found⟩ : ∃ last,
      (chunk.reverse.find? fun other => other.2.id = load.2.id) = some last := by
    rw [← Option.isSome_iff_exists, List.find?_isSome]
    exact ⟨load, List.mem_reverse.2 member, decide_eq_true rfl⟩
  have same : last.2.id = load.2.id := by simpa using List.find?_some found
  have among : last ∈ chunk := List.mem_reverse.1 (List.mem_of_find?_eq_some found)
  have isLoad : last = load := List.inj_on_of_nodup_map distinct among member same
  unfold lastKey?
  rw [List.reverse_append, List.find?_append, found, isLoad]
  rfl

end Log

/-- The delivered items that are tagged with the same id as one of them. -/
def bundleOf (label : String) (delivered : List Item) (item : Item) : List Item :=
  delivered.filter fun other => other.tag? label ".id" = item.tag? label ".id"

/-- The tags of a delivered item are an id that was given out, the number of the items in its
bundle and the sum of their sizes.  All of them were given the same group last, and it is
among the tags if it is a text. -/
structure Described (label : String) (numbered : Nat) (log : List Load) (delivered : List Item)
    (item : Item) : Prop where
  id : ∃ number < numbered, item.tag? label ".id" = some (Processor.bundleId number)
  count : item.tag? label ".count" = some (integerText (bundleOf label delivered item).length)
  size : ∃ sizes : List Int, (bundleOf label delivered item).map Item.size = sizes.map Value.int ∧
    item.tag? label ".size" = some (integerText sizes.sum)
  group : ∃ key, (∀ other ∈ bundleOf label delivered item, lastKey? log other.id = some key) ∧
    ∀ text, key = .named text → item.tag? label ".group" = some text

/-- All delivered items are described by their tags. -/
def AllDescribed (label : String) (numbered : Nat) (log : List Load) (delivered : List Item) :
    Prop :=
  ∀ item ∈ delivered, Described label numbered log delivered item

namespace AllDescribed

variable {label : String} {numbered more : Nat} {log longer : List Load} {delivered : List Item}

theorem mono (described : AllDescribed label numbered log delivered) (later : numbered ≤ more)
    (same : ∀ item ∈ delivered, lastKey? longer item.id = lastKey? log item.id) :
    AllDescribed label more longer delivered := by
  intro item member
  obtain ⟨⟨number, below, isId⟩, count, size, key, given, isGroup⟩ := described item member
  refine ⟨⟨number, Nat.lt_of_lt_of_le below later, isId⟩, count, size, key, ?_, isGroup⟩
  intro other among
  rw [same other (List.mem_of_mem_filter among)]
  exact given other among

/-- A bundle with the next number is described by its tags, and no other bundle grows. -/
theorem append (described : AllDescribed label numbered log delivered) {contents : List Item}
    {sizes : List Int} {group : Value} {key : Key} {attributes : Attributes}
    (tags : Processor.Tags label (Processor.bundleId numbered) (integerText contents.length)
      (integerText sizes.sum) group attributes)
    (areSizes : contents.map Item.size = sizes.map Value.int) (isKey : group.key? = some key)
    (given : ∀ item ∈ contents, lastKey? log item.id = some key) :
    AllDescribed label (numbered + 1) log
      (delivered ++ contents.map (Item.withAttributes · attributes)) := by
  obtain ⟨block, isBlock⟩ : ∃ block, block = contents.map (Item.withAttributes · attributes) :=
    ⟨_, rfl⟩
  have tagged {name text : String} (found : attributes.find? (label ++ name) = some (.text text)) :
      ∀ item ∈ block, item.tag? label name = some text := by
    rw [isBlock, List.forall_mem_map]
    exact fun item _ => item.tag?_withAttributes found
  have isNew := tagged tags.id
  have isOld (item : Item) (member : item ∈ delivered) :
      item.tag? label ".id" ≠ some (Processor.bundleId numbered) := by
    obtain ⟨number, below, isId⟩ := (described item member).id
    rw [isId]
    intro same
    exact Nat.ne_of_lt below (Processor.bundleId_injective (Option.some.inj same))
  rw [← isBlock]
  intro item member
  rcases List.mem_append.1 member with old | new
  · -- the items of the new bundle have another id
    have none : bundleOf label block item = [] := by
      unfold bundleOf
      rw [List.filter_eq_nil_iff]
      intro other among same
      exact isOld item old ((of_decide_eq_true same).symm.trans (isNew other among))
    have bundle : bundleOf label (delivered ++ block) item = bundleOf label delivered item := by
      unfold bundleOf at none ⊢
      rw [List.filter_append, none, List.append_nil]
    obtain ⟨⟨number, below, isId⟩, count, size, isGroup⟩ := described item old
    rw [← bundle] at count size isGroup
    exact ⟨⟨number, Nat.lt_succ_of_lt below, isId⟩, count, size, isGroup⟩
  · have none : bundleOf label delivered item = [] := by
      unfold bundleOf
      rw [List.filter_eq_nil_iff]
      intro other among same
      exact isOld other among ((of_decide_eq_true same).trans (isNew item new))
    have bundle : bundleOf label (delivered ++ block) item = block := by
      unfold bundleOf at none ⊢
      rw [List.filter_append, none, List.nil_append, List.filter_eq_self]
      exact fun other among => decide_eq_true ((isNew other among).trans (isNew item new).symm)
    refine ⟨⟨numbered, Nat.lt_succ_self _, isNew item new⟩, ?_, ⟨sizes, ?_, ?_⟩, key, ?_, ?_⟩
    · rw [bundle, isBlock, List.length_map]
      exact tagged tags.count item new
    · rw [bundle, isBlock, List.map_map]
      exact areSizes
    · exact tagged tags.size item new
    · rw [bundle, isBlock, List.forall_mem_map]
      exact given
    · rintro text rfl
      exact tagged (tags.group text (Value.eq_text_of_key?_named isKey)) item new

end AllDescribed

namespace Depot

/-- So many bundles were numbered, or more. -/
def Numbered (least : Nat) (depot : Depot) : Prop :=
  least ≤ depot.bundles

theorem aloof_numbered (least : Nat) : Aloof (Numbered least) :=
  fun _ _ _ _ _ _ _ numbered => numbered

end Depot

theorem Call.perform_numbered (least : Nat) (call : Call) :
    call.perform.Keeps (Numbered least) := by
  apply Act.Keeps.of_final
  intro depot numbered
  cases call with
  | numberBundle => exact Nat.le_succ_of_le numbered
  | mark bin target => exact (mark_aloof (aloof_numbered least) bin target).final numbered
  | _ => exact numbered

theorem Script.run_numbered {α : Type} (least : Nat) (script : Script α) :
    script.run.Keeps (Numbered least) :=
  script.uses_anything.keeps fun call _ => call.perform_numbered least

/-- Lists are the same if they are so under a function that tells their elements apart. -/
theorem eq_of_map_eq {α β : Type} {key : α → β} {first other : List α}
    (same : first.map key = other.map key) (within : first ⊆ other)
    (distinct : (other.map key).Nodup) : first = other := by
  have length : first.length = other.length := by
    simpa using congrArg List.length same
  refine List.ext_getElem length fun index here there => ?_
  apply List.inj_on_of_nodup_map distinct (within (List.getElem_mem here)) (List.getElem_mem there)
  have alike := congrArg (fun keys => keys[index]?) same
  simpa [here, there] using alike

/-- Items are taken as they are, the group key hook leaves them alone, and ready bins are tagged
as bundles. -/
structure Hooks.Bundles [Host] (label : String) (hooks : Hooks) : Prop where
  preprocess : ∀ item session, hooks.preprocess item session = .done (some item)
  groupKey : ∀ item, (hooks.groupKey item).Uses Call.Aside
  process : ∀ bin, hooks.process bin = (Processor.bundle label).script bin

namespace Hooks.Bundles

variable [Host] {label : String} {hooks : Hooks} (bundles : hooks.Bundles label)
include bundles

theorem prepare : hooks.Prepare :=
  .of_same bundles.preprocess bundles.groupKey fun bin => by
    rw [bundles.process]
    exact Processor.uses_bundle label bin

/-- A bin and its session hold an item in the same version. -/
theorem eq_of_pairs {originals : Item → Prop} {version current : Item}
    (pair : hooks.Pairs originals version current) : version = current := by
  obtain ⟨item, _, session, start, reached, run, held, left⟩ := pair
  rw [bundles.preprocess] at run
  cases run
  exact Option.some.inj (held.symm.trans left)

/-- So a bin and its session hold the same items, in the same order. -/
theorem items_eq_contents {known : List String} {originals : Item → Prop} {depot : Depot}
    {bin : BinId} (coherent : (depot.binSession bin).Coherent known)
    (held : (depot.binSession bin).ids = (depot.bin bin).contents.map Item.id)
    (paired : depot.Paired (hooks.Pairs originals) bin) :
    (depot.binSession bin).items = (depot.bin bin).contents := by
  refine eq_of_map_eq (coherent.ids_items.trans held) (fun current isCurrent => ?_) ?_
  · obtain ⟨id, found⟩ := Table.mem_values_iff.1 isCurrent
    obtain ⟨version, member, _, pair⟩ := paired id current found
    exact bundles.eq_of_pairs pair ▸ member
  · rw [← held]
    exact Session.nodup_ids _

end Hooks.Bundles

namespace Depot

/-- Bins are expected to hold what was given their group last. -/
def Terms.logged (log : List Load) : Terms :=
  { Terms.lenient {} 0 with given := fun key version => lastKey? log version.id = some key }

/-- Bins that are well filled stay so if what they hold is expected for other reasons. -/
theorem Stocked.regiven {terms : Terms} {depot : Depot} (stocked : depot.Stocked terms)
    {given : Key → Item → Prop}
    (regiven : ∀ bin, depot.Stored bin → ∀ key, ∀ item ∈ (depot.bin bin).contents,
      terms.given key item → given key item) : depot.Stocked { terms with given } :=
  { stocked with
    filled := fun bin stored =>
      have filled := stocked.filled bin stored
      have ⟨key, isKey, areGiven⟩ := filled.grouped
      { filled with
        grouped := ⟨key, isKey, fun item member =>
          regiven bin stored key item member (areGiven item member)⟩ } }

/-- Whatever is delivered to success was delivered before. -/
def Unsent (before : Depot) (relationship : String) (item : Item) : Prop :=
  relationship = successRelationship → item ∈ before.delivered successRelationship

theorem received_unsent (depot : Depot) : depot.Received depot.Unsent := by
  rintro _ received found item member rfl
  unfold Depot.delivered
  rw [found]
  exact member

/-- Sinks that lose nothing receive nothing if all that they hold was there before. -/
theorem delivered_of_unsent {before after : Depot}
    (distinct : ((after.delivered successRelationship).map Item.id).Nodup)
    (grown : after.flow.Extends before.flow.sinks) (received : after.Received before.Unsent) :
    after.delivered successRelationship = before.delivered successRelationship := by
  obtain ⟨more, isMore⟩ := delivered_of_extends grown successRelationship
  have none : more = [] := by
    rw [List.eq_nil_iff_forall_not_mem]
    intro item member
    have old := received.of_delivered (isMore ▸ List.mem_append_right _ member) rfl
    rw [isMore, List.map_append, List.nodup_append] at distinct
    exact distinct.2.2 _ (List.mem_map_of_mem old) _ (List.mem_map_of_mem member) rfl
  rw [isMore, none, List.append_nil]

end Depot

namespace Engine

variable {label : String} {engine : Engine} {known : List String} {given : List Item}
  {log longer : List Load} {before after depot : Depot}

/-- What the next chunk is loaded with. -/
def nextLoads (engine : Engine) (depot : Depot) : List Load :=
  loads (engine.nextFindings depot)

/-- The bins hold what was given last, as their sessions do, and the tags of what was delivered
to success describe it. -/
structure Bundled (label : String) (hooks : Hooks) (log : List Load) (depot : Depot) : Prop where
  stocked : depot.Stocked (.logged log)
  matched : depot.Matched (hooks.Pairs fun _ => True)
  described : AllDescribed label depot.bundles log (depot.delivered successRelationship)

/-- In the course of a run no number is given out again. -/
theorem numbered_keeping {α : Type} {note : Depot → List α} (least : Nat) :
    Keeping engine known note fun _ => Numbered least where
  taken _ _ _ _ := (intakeRules_aloof (aloof_numbered least)
    (fun _ _ => Script.run_numbered least _) fun _ => Script.run_numbered least _).takeChunk.final
  migrated _ _ _ maintained :=
    migrateBins_aloof (aloof_numbered least) maintained.tended.sound.arranged
  handled _ _ _ _ _ activation _ numbered _ :=
    (handle_aloof (aloof_numbered least) (Script.run_numbered least _) activation).final numbered
  counted _ _ _ _ _ := id
  performed _ _ _ event _ numbered outside := by
    cases event with
    | activate answers => exact absurd rfl (outside answers)
    | reset => exact (reset_aloof (aloof_numbered least)).final numbered
    | put | advance | applyPolicy | set => exact numbered

/-- What was delivered is not pulled again. -/
theorem delivered_not_mem_nextIds (maintained : depot.Maintained known given)
    {relationship : String} {item : Item} (member : item ∈ depot.delivered relationship) :
    item.id ∉ engine.nextIds depot := by
  have sunk : item.id ∈ depot.flow.idsAt (.sink relationship) := List.mem_map_of_mem member
  exact not_mem_nextIds_of_idsAt maintained (show Flow.Spot.source ≠ .sink _ from nofun) sunk

theorem Bundled.consigned {hooks : Hooks} (bundled : Bundled label hooks log depot) :
    Consigned hooks (fun _ => True) depot.Unsent depot :=
  ⟨bundled.matched, depot.received_unsent⟩

section Steps

variable [Host] (bundles : engine.hooks.Bundles label)
include bundles

/-- A step that delivers nothing to success leaves the tags of what was delivered right. -/
theorem Bundled.step (bundled : Bundled label engine.hooks log before)
    (leads : LeadsTo engine known before after) (stocked : after.Stocked (.logged longer))
    (consigned : Consigned engine.hooks (fun _ => True) before.Unsent after)
    (distinct : (given.map Item.id).Nodup)
    (sound : after.Sound (Flow.Accounted known (given.map Item.id)) [])
    (same : ∀ item ∈ before.delivered successRelationship,
      lastKey? longer item.id = lastKey? log item.id) :
    Bundled label engine.hooks longer after where
  stocked := stocked
  matched := consigned.matched
  described := by
    have grown : after.flow.Extends before.flow.sinks :=
      leads _ (extends_keeping bundles.prepare _) (Flow.extends_refl _)
    have numbered : after.Numbered before.bundles :=
      leads _ (numbered_keeping _) (Nat.le_refl _)
    have once := sound.flow.nodup_idsAt distinct
      (show Flow.Spot.source ≠ .sink successRelationship from nofun)
    rw [delivered_of_unsent once grown consigned.received]
    exact bundled.described.mono numbered same

/-- A chunk that is pulled leaves the tags of what was delivered right, since nothing of it was
delivered and none of it is in a bin. -/
theorem takeChunk_bundled (maintained : depot.Maintained known given)
    (bundled : Bundled label engine.hooks log depot) :
    Bundled label engine.hooks (log ++ engine.nextLoads depot)
      ((takeChunk engine).final depot) := by
  have prepare := bundles.prepare
  have distinct := maintained.distinct
  have sound := maintained.tended.sound
  have cohering : Flow.Cohering known (Flow.Accounted known (given.map Item.id)) :=
    (Flow.single_accounted distinct).toCohering
  obtain ⟨soundThen, consigned⟩ := (takeChunk_consigns cohering prepare
    (fun _ _ => ⟨fun _ _ => trivial, fun _ _ _ _ => trivial⟩)
    (fun _ _ _ _ _ success => absurd success (by decide))).final ⟨sound, bundled.consigned⟩
  have pulled := ids_nextLoads_sublist cohering.carried prepare sound
  have apart : ((engine.nextLoads depot).map fun load => load.2.id).Nodup :=
    (nodup_nextIds engine depot).sublist pulled
  have same {id : String} (absent : id ∉ engine.nextIds depot) :
      lastKey? (log ++ engine.nextLoads depot) id = lastKey? log id :=
    lastKey?_append fun among => absent (pulled.subset among)
  have regiven : depot.Stocked (.logged (log ++ engine.nextLoads depot)) := by
    refine bundled.stocked.regiven fun bin stored key item member isGiven => ?_
    have absent : item.id ∉ engine.nextIds depot :=
      not_mem_nextIds maintained stored _ (List.mem_map_of_mem member)
    exact (same absent).trans isGiven
  have leads : LeadsTo engine known depot ((takeChunk engine).final depot) :=
    fun _ keeping => keeping.taken given [] depot maintained
  refine bundled.step bundles leads ?_ consigned distinct soundThen
    fun item member => same (delivered_not_mem_nextIds maintained member)
  refine takeChunk_stocks distinct prepare.behave (prepare.spare 0) ⟨sound, regiven⟩
    (fun _ _ _ => trivial) fun load isLoad => ?_
  exact lastKey?_append_of_mem isLoad apart

theorem migrateBins_bundled (maintained : depot.Maintained known given)
    (bundled : Bundled label engine.hooks log depot) :
    Bundled label engine.hooks log (migrateBins.final depot) := by
  have sound := maintained.tended.sound
  have soundThen := (migrateBins_maintains.final maintained).tended.sound
  have leads : LeadsTo engine known depot (migrateBins.final depot) :=
    fun _ keeping => keeping.migrated given [] depot maintained
  exact bundled.step bundles leads
    (bundled.stocked.intact (migrateBins_intact sound.arranged))
    (migrateBins_consigns sound bundled.consigned) maintained.distinct soundThen fun _ _ => rfl

/-- Nothing that is rolled back is delivered. -/
theorem reset_bundled (maintained : depot.Maintained known given)
    (bundled : Bundled label engine.hooks log depot) :
    Bundled label engine.hooks log (reset.final depot) := by
  have sound := maintained.tended.sound
  have soundThen := (reset_sound (Flow.carried_accounted maintained.distinct)).final sound
  have leads : LeadsTo engine known depot (reset.final depot) :=
    fun _ keeping holds => keeping.performed given [] depot .reset maintained holds nofun
  exact bundled.step bundles leads
    (bundled.stocked.intact (reset_intact sound)) (reset_consigns.final bundled.consigned)
    maintained.distinct soundThen fun _ _ => rfl

/-- The bundle of a bin is delivered as a whole and with the tags of the bin, or it is not
delivered. -/
theorem handle_described {bin : BinId} (coherent : (depot.binSession bin).Coherent known)
    (filled : depot.WellFilled (Terms.logged log).given bin)
    (paired : depot.Paired (engine.hooks.Pairs fun _ => True) bin)
    (described : AllDescribed label depot.bundles log (depot.delivered successRelationship))
    (activation : Activation) :
    let after := (handle engine.hooks bin activation).final depot
    AllDescribed label after.bundles log (after.delivered successRelationship) := by
  intro after
  have numbered : after.Numbered depot.bundles :=
    (handle_aloof (aloof_numbered _) (Script.run_numbered _ _) activation).final (Nat.le_refl _)
  have unsent (same : after.delivered successRelationship =
      depot.delivered successRelationship) :
      AllDescribed label after.bundles log (after.delivered successRelationship) := by
    rw [same]
    exact described.mono numbered fun _ _ => rfl
  have items := bundles.items_eq_contents coherent filled.held paired
  have ships := handle_ships (bundles.prepare.process bin)
    (by rw [filled.held]; exact List.Subset.refl _) activation
  rcases ships.delivered successRelationship with same | added
  · exact unsent same
  obtain ⟨answer, run, isAnswer⟩ := Processor.run_bundle label bin (handedOver bin depot).depot
  rw [← bundles.process] at run
  have answers : (handedOver bin depot).answer engine.hooks = answer := congrArg Prod.fst run
  rw [answers] at added
  -- a bin that the processor refuses is rolled back
  rcases isAnswer with rfl | ⟨_, rfl⟩ | rfl
  · exact unsent (added.trans (List.append_nil _))
  · exact unsent (added.trans (List.append_nil _))
  · rw [items] at added
    have numberedNext : after.Numbered (depot.bundles + 1) := by
      rw [show after = _ from final_handle activation depot, completed_eq run]
      exact (settle_aloof (aloof_numbered _) (Script.run_numbered _ (engine.hooks.process bin))
        _ {}).final (Nat.le_refl _)
    obtain ⟨key, isKey, given⟩ := filled.grouped
    obtain ⟨sizes, areSizes, isSum⟩ := filled.weighs
    have tags := Processor.tags_bundleAttributes label depot.bundles (depot.bin bin)
    rw [isSum] at tags
    have appended := described.append tags areSizes isKey given
    rw [show after.delivered _ = _ from added]
    exact appended.mono numberedNext fun _ _ => rfl

theorem handle_bundled (maintained : depot.Maintained known given)
    (bundled : Bundled label engine.hooks log depot) {bin : BinId} {rest : List BinId}
    (isQueue : depot.ready = bin :: rest) (activation : Activation) :
    Bundled label engine.hooks log
      ((handle engine.hooks bin activation).final { depot with ready := rest }) := by
  have prepare := bundles.prepare
  have sound := maintained.tended.sound
  have stored : depot.Stored bin := .inr (isQueue ▸ List.mem_cons_self)
  have carried := @Flow.carried_accounted known _ maintained.distinct
  have intact := (handle_intact prepare carried sound isQueue activation).2.1
  have unaltered : depot.Unaltered { depot with ready := rest } :=
    (dequeued_intact isQueue).unaltered sound fun _ _ => rfl
  have consigned : Consigned engine.hooks (fun _ => True) (fun _ _ => True)
      { depot with ready := rest } :=
    ⟨bundled.matched.unaltered unaltered, fun _ _ _ _ _ => trivial⟩
  have paired : depot.Paired (engine.hooks.Pairs fun _ => True) bin := bundled.matched bin stored
  refine ⟨bundled.stocked.intact intact, ?_, ?_⟩
  · exact (handle_consigns (prepare.process bin) (sound.take isQueue) paired consigned
      (fun _ _ _ => trivial) activation).matched
  · have filled := bundled.stocked.filled bin stored
    exact @handle_described label engine known log { depot with ready := rest } _ bundles bin
      (sound.flow.coherent.sessions _) ⟨filled.weighs, filled.within, filled.held, filled.grouped⟩
      paired bundled.described activation

/-- In the course of a run what was delivered stays described by its tags, as the chunks that
are taken are logged. -/
theorem bundled_keeping :
    Keeping engine known engine.nextLoads (Bundled label engine.hooks) where
  taken _ _ _ maintained bundled := takeChunk_bundled bundles maintained bundled
  migrated _ _ _ maintained bundled := migrateBins_bundled bundles maintained bundled
  handled _ _ _ _ _ activation maintained bundled isQueue :=
    handle_bundled bundles maintained bundled isQueue activation
  counted given log depot counters maintained bundled :=
    ⟨bundled.stocked.intact (count_intact (fun _ => counters) depot), bundled.matched,
      bundled.described⟩
  performed given log depot event maintained bundled outside := by
    have intact : depot.Intact (event.perform engine depot) :=
      event.perform_intact maintained.tended.sound outside
    cases event with
    | activate answers => exact absurd rfl (outside answers)
    | reset => exact reset_bundled bundles maintained bundled
    | put | advance | applyPolicy | set =>
        exact ⟨bundled.stocked.intact intact, bundled.matched, bundled.described⟩

end Steps

/-- At every moment of a run, whatever was activated, cancelled, reset or set before, the tags of
each delivered item describe its bundle: between two events, between two chunks of an intake,
and whenever a bin is handed to the processor or was completed.  The items that are tagged
with the same id are as many as their count says and as large together as their size says,
and all of them were given the group that they are tagged with, when they were given one last. -/
theorem bundles_described [Host] (engine : Engine) (label : String)
    (bundles : engine.hooks.Bundles label) (source : List Item) (relationships : List String)
    (clock : Moment) (policy : Policy) (events : List Event) (answers : List Bool)
    (distinct : ((source ++ events.flatMap Event.items).map Item.id).Nodup)
    (whole : ∀ item ∈ source ++ events.flatMap Event.items, item.HasWholeSize) :
    let start := opening { source, sinks := Flow.sinksFor relationships } clock policy
    let before := run engine start events
    let between := (takeIn engine answers).final before
    let log := engine.runNotes engine.nextLoads start events
    let longer := log ++ engine.takeInNotes engine.nextLoads answers before
    let describes (log : List Load) (depot : Depot) :=
      AllDescribed label depot.bundles log (depot.delivered successRelationship)
    describes log before ∧ describes longer between ∧
      ∀ handing ∈ engine.handings answers before,
        describes longer handing.depot ∧ describes longer (handing.completed engine.hooks) := by
  intro start before between log longer describes
  rw [List.forall_mem_append] at whole
  have prepare := bundles.prepare
  have distinctSource : (source.map Item.id).Nodup := by
    rw [List.map_append] at distinct
    exact distinct.of_append_left
  have keeping : Keeping engine (Flow.sinksFor relationships).keys engine.nextLoads
      (Bundled label engine.hooks) := bundled_keeping bundles
  have empty : Consigned engine.hooks (fun _ => True) (fun _ _ => False) start :=
    consigned_opening source relationships clock policy
  have starts : Bundled label engine.hooks [] start :=
    ⟨.of_empty ⟨Nat.zero_le _, nofun⟩ (Nat.zero_le _) rfl rfl, empty.matched,
      fun item member => (empty.received.of_delivered member).elim⟩
  obtain ⟨maintained, bundled⟩ := run_keeping prepare keeping events
    (maintained_opening relationships clock policy distinctSource whole.1) distinct whole.2 starts
  refine ⟨bundled.described, ?_, fun handing isHanding => ?_⟩
  · exact (takeIn_keeping prepare keeping answers maintained bundled).2.described
  · obtain ⟨depot, rest, isMaintained, isBundled, isQueue, isHanding, _⟩ :=
      activate_handed prepare keeping answers maintained bundled handing isHanding
    rw [isHanding]
    refine ⟨isBundled.described, ?_⟩
    rw [← final_handle {}]
    exact (handle_bundled bundles isMaintained isBundled isQueue {}).described

/-- Items are grouped by an attribute and tagged as bundles. -/
def bundling [Host] : Engine where
  hooks :=
    { groupKey := (Grouping.byAttribute "group" [] []).script
      process := (Processor.bundle "b").script }
  chunkSize := .int 2

theorem bundles_bundling [Host] : bundling.hooks.Bundles "b" where
  preprocess _ _ := rfl
  groupKey := Grouping.uses_script _ (.byAttribute "group" [] [])
  process _ := rfl

/-- Two items of one group come back in a reset and are a bundle later on, and two more are the
next bundle. -/
theorem bundles_described_after_reset :
    letI : Host := .customary
    let source := [grouped "a" "x", grouped "b" "y", grouped "c" "x"]
    let events : List Event := [.activate [true], .reset, .activate [true, true, true, true],
      .put [grouped "d" "x", grouped "e" "x"]]
    let start := opening { source, sinks := Flow.sinksFor [] } {} { minEntries := 2 }
    let before := run bundling start events
    let log := bundling.runNotes bundling.nextLoads start events
    let longer := log ++ bundling.takeInNotes bundling.nextLoads [true, true, true] before
    log.map (fun load => (load.1, load.2.id)) = [(.named "x", "a"), (.named "y", "b"),
      (.named "y", "b"), (.named "x", "a"), (.named "x", "c")] ∧
    ((before.delivered successRelationship).map fun item =>
        (item.id, [".id", ".count", ".size", ".group"].map (item.tag? "b" ·))) =
      [("a", [some "b1", some "2", some "2", some "x"]),
        ("c", [some "b1", some "2", some "2", some "x"])] ∧
    AllDescribed "b" before.bundles log (before.delivered successRelationship) ∧
    (bundling.handings [true, true, true] before).length = 1 ∧
    ∀ handing ∈ bundling.handings [true, true, true] before,
      AllDescribed "b" (handing.completed bundling.hooks).bundles longer
        ((handing.completed bundling.hooks).delivered successRelationship) := by
  let _ : Host := .customary
  intro source events start before log longer
  have whole : ∀ item ∈ source ++ events.flatMap Event.items, item.HasWholeSize := by
    simp only [source, events, Event.items, List.cons_append, List.flatMap_cons,
      List.flatMap_nil, List.nil_append, List.append_nil, List.forall_mem_cons]
    exact ⟨⟨1, rfl⟩, ⟨1, rfl⟩, ⟨1, rfl⟩, ⟨1, rfl⟩, ⟨1, rfl⟩, List.forall_mem_nil _⟩
  have described := bundles_described bundling "b" bundles_bundling source [] {}
    { minEntries := 2 } events [true, true, true] (by decide +kernel) whole
  exact ⟨by decide +kernel, by decide +kernel, described.1, by decide +kernel,
    fun handing isHanding => (described.2.2 handing isHanding).2⟩

end Engine

end ItemBinning
