import GraphStore.Proofs.Engine.Session

/-!
# Chains in both directions

The relationships of a node hang together in both directions. Main statement: in every collection
that was made and used, the links forward from a node visit exactly the relationships that stand at
it, from the newest to the oldest, and the links backward on the sides at the node lead the same way
back.
-/

set_option autoImplicit false

namespace GraphStore

/-- Whether a record is linked back to `previous` on each side that stands at a node. -/
def RelationshipRecord.Follows (record : RelationshipRecord) (node : RecordId)
    (previous : Option RecordId) : Prop :=
  (record.first = node → record.firstPrevious = previous) ∧
    (record.second = node → record.secondPrevious = previous)

/-- Whether the links forward at a node lead from `start` over records with these numbers to an end,
and each of them links back to the one before it, the first of them to `previous`. -/
inductive TwoWay (records : List RelationshipRecord) (node : RecordId) :
    (previous start : Option RecordId) → (visited : List RecordId) → Prop
  | nil (previous : Option RecordId) : TwoWay records node previous none []
  | cons {previous : Option RecordId} {id : RecordId} {record : RelationshipRecord}
      {rest : List RecordId} (found : records[id.toNat]? = some record)
      (back : record.Follows node previous)
      (onward : TwoWay records node (some id) (record.next node) rest) :
      TwoWay records node previous (some id) (id :: rest)

/-- Whether the relationships of a node are the ones that stand at it, each visited once and the
newest first, linked in both directions. -/
structure LinkedAt (relationships : List RelationshipRecord) (id : RecordId) (node : NodeRecord)
    (visited : List RecordId) : Prop where
  links : TwoWay relationships id none node.relationships visited
  descending : visited.Pairwise (· > ·)
  all (other : RecordId) : other ∈ visited ↔
    ∃ record, relationships[other.toNat]? = some record ∧ (record.first = id ∨ record.second = id)

/-- Whether the relationships of every node are linked in both directions. -/
def DoublyLinked (nodes : List NodeRecord) (relationships : List RelationshipRecord) : Prop :=
  ∀ (id : RecordId) node, nodes[id.toNat]? = some node →
    ∃ visited, LinkedAt relationships id node visited

/-!
## Records that are linked back
-/

section

variable {record later : RelationshipRecord} {node other id : RecordId}
  {previous former : Option RecordId} {number : Nat}

theorem follows_setPrevious (record : RelationshipRecord) (node : RecordId)
    (previous : Option RecordId) : (record.setPrevious node previous).Follows node previous :=
  ⟨fun first => if_pos first, fun second => if_pos second⟩

theorem RelationshipRecord.Follows.setPrevious_of_ne (follows : record.Follows other previous)
    (apart : other ≠ node) (linked : Option RecordId) :
    (record.setPrevious node linked).Follows other previous where
  left first := by
    have notNode : record.first ≠ node := fun same => apart (first.symm.trans same)
    exact (if_neg notNode).trans (follows.1 first)
  right second := by
    have notNode : record.second ≠ node := fun same => apart (second.symm.trans same)
    exact (if_neg notNode).trans (follows.2 second)

/-- Whether a record came from another one by a change of links backward, which gave it a link to
`id` on the sides at the nodes in `heads` and kept those at all other nodes. -/
structure Relinked (record later : RelationshipRecord) (heads : RecordId → Prop) (id : RecordId) :
    Prop where
  ends : later.first = record.first ∧ later.second = record.second
  next (node : RecordId) : later.next node = record.next node
  new (node : RecordId) : heads node → later.Follows node (some id)
  kept (node : RecordId) (previous : Option RecordId) :
    ¬heads node → record.Follows node previous → later.Follows node previous

theorem exists_relinked {records : List RelationshipRecord}
    (found : records[number]? = some record) (node : RecordId) (former : Option RecordId)
    (id : RecordId) :
    ∃ later, (linkedBack records node former id)[number]? = some later ∧
      Relinked record later (fun other => other = node ∧ former.map UInt32.toNat = some number)
        id := by
  rw [getElem?_linkedBack, found]
  split
  next isHead =>
    refine ⟨_, rfl, ⟨rfl, rfl⟩, fun _ => rfl, ?_, ?_⟩
    · intro other ended
      obtain ⟨rfl, -⟩ := ended
      exact follows_setPrevious record other (some id)
    · intro other previous notHead follows
      exact follows.setPrevious_of_ne (fun same => notHead ⟨same, isHead⟩) (some id)
  next notHead =>
    refine ⟨_, rfl, ⟨rfl, rfl⟩, fun _ => rfl, ?_, fun _ _ _ follows => follows⟩
    intro other ended
    obtain ⟨-, isHead⟩ := ended
    exact absurd isHead notHead

theorem Relinked.trans {last : RelationshipRecord} {heads others : RecordId → Prop}
    (first : Relinked record later heads id) (second : Relinked later last others id) :
    Relinked record last (fun node => heads node ∨ others node) id where
  ends := ⟨second.ends.1.trans first.ends.1, second.ends.2.trans first.ends.2⟩
  next node := (second.next node).trans (first.next node)
  new node isHead := by
    by_cases inOthers : others node
    · exact second.new node inOthers
    · rcases isHead with inHeads | inOthers'
      · exact second.kept node _ inOthers (first.new node inHeads)
      · exact absurd inOthers' inOthers
  kept node previous notHead follows :=
    second.kept node previous (fun isHead => notHead (.inr isHead))
      (first.kept node previous (fun isHead => notHead (.inl isHead)) follows)

end

/-!
## Chains through changed records
-/

namespace TwoWay

variable {records later : List RelationshipRecord} {node : RecordId}
  {previous start : Option RecordId} {visited : List RecordId}

theorem lt_length (links : TwoWay records node previous start visited) :
    ∀ id ∈ visited, id.toNat < records.length := by
  induction links with
  | nil => exact nofun
  | cons found _ _ ih =>
      intro id member
      rcases List.mem_cons.mp member with rfl | member
      · exact (List.getElem?_eq_some_iff.mp found).1
      · exact ih id member

/-- A chain goes through changed records as through the former ones if their links at the node are
kept. -/
theorem changed (links : TwoWay records node previous start visited)
    (kept : ∀ id ∈ visited, ∀ record, records[id.toNat]? = some record →
      ∃ other, later[id.toNat]? = some other ∧ other.next node = record.next node ∧
        ∀ previous, record.Follows node previous → other.Follows node previous) :
    TwoWay later node previous start visited := by
  induction links with
  | nil previous => exact .nil previous
  | cons found back _ ih =>
      obtain ⟨other, there, next, follows⟩ := kept _ List.mem_cons_self _ found
      refine .cons there (follows _ back) (next ▸ ih fun id member => ?_)
      exact kept id (List.mem_cons_of_mem _ member)

/-- A chain in front of which a record is put: its former first record is linked back to it. -/
theorem reheaded {heads : Nat → RecordId → Prop} {id : RecordId}
    (links : TwoWay records node previous start visited) (unique : visited.Nodup)
    (isHead : ∀ number, heads number node ↔ start.map UInt32.toNat = some number)
    (relinked : ∀ (number : Nat) record, records[number]? = some record →
      ∃ other, later[number]? = some other ∧ Relinked record other (heads number) id) :
    TwoWay later node (some id) start visited := by
  cases links with
  | nil => exact .nil (some id)
  | @cons _ head record rest found back onward =>
      obtain ⟨other, there, changed⟩ := relinked _ record found
      refine .cons there (changed.new node ((isHead _).mpr rfl)) (changed.next node ▸ ?_)
      refine onward.changed fun behind member record foundBehind => ?_
      obtain ⟨other, there, changed⟩ := relinked _ record foundBehind
      have notHead : ¬heads behind.toNat node := by
        intro same
        have equal := UInt32.toNat.inj (Option.some.inj ((isHead _).mp same))
        exact (List.nodup_cons.mp unique).1 (equal ▸ member)
      exact ⟨other, there, changed.next node, fun previous => changed.kept node previous notHead⟩

end TwoWay

/-!
## Relationships that are linked in
-/

namespace Joins

variable {before stores : Stores} {record : RelationshipRecord}

/-- Whether the first relationship of a node at an end of a record has a number. -/
def Heads (record : RelationshipRecord) (number : Nat) (node : RecordId) : Prop :=
  (node = record.first ∧ record.firstNext.map UInt32.toNat = some number) ∨
    (node = record.second ∧ record.secondNext.map UInt32.toNat = some number)

theorem exists_relinked (joins : Joins before stores record) {number : Nat}
    {former : RelationshipRecord}
    (found : (before .relationship ++ [record])[number]? = some former) :
    ∃ later, (stores .relationship)[number]? = some later ∧
      Relinked former later (Heads record number)
        (UInt32.ofNat (before .relationship).length) := by
  obtain ⟨middle, middleFound, first⟩ := GraphStore.exists_relinked found record.first
    record.firstNext (UInt32.ofNat (before .relationship).length)
  obtain ⟨later, laterFound, second⟩ := GraphStore.exists_relinked middleFound record.second
    record.secondNext (UInt32.ofNat (before .relationship).length)
  rw [joins.relationships]
  exact ⟨later, laterFound, first.trans second⟩

theorem next_eq (joins : Joins before stores record) {id : RecordId} {node : NodeRecord}
    (isEnd : id = record.first ∨ id = record.second)
    (found : (before .node)[id.toNat]? = some node) : record.next id = node.relationships := by
  obtain ⟨source, sourceFound, sourceNext⟩ := joins.source
  obtain ⟨target, targetFound, targetNext⟩ := joins.target
  rw [RelationshipRecord.next]
  split
  next first =>
    subst first
    rw [sourceNext, Option.some.inj (sourceFound.symm.trans found)]
  next notFirst =>
    have second := isEnd.resolve_left fun same => notFirst same.symm
    rw [if_pos second.symm, targetNext, Option.some.inj (targetFound.symm.trans (second ▸ found))]

theorem heads_iff (joins : Joins before stores record) {id : RecordId} {node : NodeRecord}
    (isEnd : id = record.first ∨ id = record.second)
    (found : (before .node)[id.toNat]? = some node) (number : Nat) :
    Heads record number id ↔ node.relationships.map UInt32.toNat = some number := by
  obtain ⟨source, sourceFound, sourceNext⟩ := joins.source
  obtain ⟨target, targetFound, targetNext⟩ := joins.target
  have ofFirst : id = record.first → record.firstNext = node.relationships := by
    intro same
    subst same
    rw [sourceNext, Option.some.inj (sourceFound.symm.trans found)]
  have ofSecond : id = record.second → record.secondNext = node.relationships := by
    intro same
    subst same
    rw [targetNext, Option.some.inj (targetFound.symm.trans found)]
  constructor
  · intro given
    rcases given with ⟨first, head⟩ | ⟨second, head⟩
    · rw [← ofFirst first, head]
    · rw [← ofSecond second, head]
  · intro head
    rcases isEnd with first | second
    · exact .inl ⟨first, by rw [ofFirst first, head]⟩
    · exact .inr ⟨second, by rw [ofSecond second, head]⟩

/-- The nodes at the ends of a new relationship point at it, and all others at what they pointed
at. -/
theorem exists_node (joins : Joins before stores record) {id : RecordId} {later : NodeRecord}
    (found : (stores .node)[id.toNat]? = some later) :
    ∃ node, (before .node)[id.toNat]? = some node ∧
      ((id = record.first ∨ id = record.second) ∧
          later.relationships = some (UInt32.ofNat (before .relationship).length) ∨
        ¬(id = record.first ∨ id = record.second) ∧ later.relationships = node.relationships) := by
  rw [joins.nodes, getElem?_headed, getElem?_headed] at found
  split at found
  next second =>
    have isSecond := UInt32.toNat.inj second
    split at found
    · simp only [Option.map_map, Option.map_eq_some_iff] at found
      obtain ⟨node, there, rfl⟩ := found
      exact ⟨node, there, .inl ⟨.inr isSecond.symm, rfl⟩⟩
    · obtain ⟨node, there, rfl⟩ := Option.map_eq_some_iff.mp found
      exact ⟨node, there, .inl ⟨.inr isSecond.symm, rfl⟩⟩
  next notSecond =>
    split at found
    next first =>
      obtain ⟨node, there, rfl⟩ := Option.map_eq_some_iff.mp found
      exact ⟨node, there, .inl ⟨.inl (UInt32.toNat.inj first).symm, rfl⟩⟩
    next notFirst =>
      refine ⟨later, found, .inr ⟨?_, rfl⟩⟩
      intro given
      rcases given with rfl | rfl
      · exact notFirst rfl
      · exact notSecond rfl

end Joins

/-!
## Collections that are linked in both directions
-/

/-- Whether all relationships are between nodes and linked in both directions. -/
structure Wired (stores : Stores) : Prop where
  ends : ∀ record ∈ stores .relationship, record.first.toNat < (stores .node).length ∧
    record.second.toNat < (stores .node).length
  linked : DoublyLinked (stores .node) (stores .relationship)

namespace Wired

variable {before stores : Stores} {record : RelationshipRecord}

theorem empty : Wired .empty := ⟨nofun, nofun⟩

theorem congr (wired : Wired before) (node : stores .node = before .node)
    (relationship : stores .relationship = before .relationship) : Wired stores := by
  obtain ⟨ends, linked⟩ := wired
  rw [← node, ← relationship] at ends linked
  exact ⟨ends, linked⟩

/-- A new node has no relationships, as all are between nodes that were there before. -/
theorem addNode (wired : Wired before) {node : NodeRecord} (bare : node.relationships = none)
    (nodes : stores .node = before .node ++ [node])
    (relationships : stores .relationship = before .relationship) : Wired stores where
  ends := by
    intro record member
    rw [relationships] at member
    obtain ⟨first, second⟩ := wired.ends record member
    rw [nodes, List.length_append, List.length_singleton]
    exact ⟨by omega, by omega⟩
  linked := by
    intro id later found
    rw [relationships]
    rw [nodes] at found
    by_cases new : id.toNat = (before .node).length
    · rw [new, List.getElem?_concat_length] at found
      obtain rfl := Option.some.inj found
      have links : TwoWay (before .relationship) id none node.relationships [] := by
        rw [bare]
        exact .nil none
      refine ⟨[], links, .nil, fun other => ⟨nofun, ?_⟩⟩
      intro given
      obtain ⟨record, there, isEnd⟩ := given
      obtain ⟨first, second⟩ := wired.ends record (List.mem_of_getElem? there)
      rcases isEnd with rfl | rfl
      · exact absurd new (Nat.ne_of_lt first)
      · exact absurd new (Nat.ne_of_lt second)
    · rw [getElem?_concat_of_ne new] at found
      exact wired.linked id later found

private theorem not_heads_new (wired : Wired before) (joins : Joins before stores record)
    (node : RecordId) : ¬Joins.Heads record (before .relationship).length node := by
  have short : ∀ (id : RecordId) node, (before .node)[id.toNat]? = some node →
      node.relationships.map UInt32.toNat ≠ some (before .relationship).length := by
    intro id node found head
    obtain ⟨visited, linkedAt⟩ := wired.linked id node found
    cases start : node.relationships with
    | none =>
        rw [start] at head
        cases head
    | some first =>
        have links := linkedAt.links
        rw [start] at head links
        cases links with
        | cons there _ _ =>
            have inside := (List.getElem?_eq_some_iff.mp there).1
            exact absurd (Option.some.inj head) (Nat.ne_of_lt inside)
  obtain ⟨source, sourceFound, sourceNext⟩ := joins.source
  obtain ⟨target, targetFound, targetNext⟩ := joins.target
  intro given
  rcases given with ⟨-, head⟩ | ⟨-, head⟩
  · exact short _ source sourceFound (sourceNext ▸ head)
  · exact short _ target targetFound (targetNext ▸ head)

/-- Which relationships stand at a node behind a new one. -/
private theorem exists_end_iff (joins : Joins before stores record) (id other : RecordId) :
    (∃ later, (stores .relationship)[other.toNat]? = some later ∧
        (later.first = id ∨ later.second = id)) ↔
      ∃ former, (before .relationship ++ [record])[other.toNat]? = some former ∧
        (former.first = id ∨ former.second = id) := by
  constructor
  · intro given
    obtain ⟨later, found, isEnd⟩ := given
    have inside := (List.getElem?_eq_some_iff.mp found).1
    rw [joins.relationships, length_linkedBack, length_linkedBack] at inside
    obtain ⟨same, sameFound, relinked⟩ := joins.exists_relinked (List.getElem?_eq_getElem inside)
    obtain rfl := Option.some.inj (found.symm.trans sameFound)
    rw [relinked.ends.1, relinked.ends.2] at isEnd
    exact ⟨_, List.getElem?_eq_getElem inside, isEnd⟩
  · intro given
    obtain ⟨former, found, isEnd⟩ := given
    obtain ⟨later, laterFound, relinked⟩ := joins.exists_relinked found
    rw [← relinked.ends.1, ← relinked.ends.2] at isEnd
    exact ⟨later, laterFound, isEnd⟩

private theorem mem_concat_iff {relationships : List RelationshipRecord} {id other : RecordId}
    (old : other.toNat ≠ relationships.length) :
    (∃ former, (relationships ++ [record])[other.toNat]? = some former ∧
        (former.first = id ∨ former.second = id)) ↔
      ∃ former, relationships[other.toNat]? = some former ∧
        (former.first = id ∨ former.second = id) := by
  rw [getElem?_concat_of_ne old]

/-- A node at an end of a new relationship has it in front of its others. -/
private theorem linkedAt_end (wired : Wired before) (joins : Joins before stores record)
    {id : RecordId} {node later : NodeRecord} {visited : List RecordId}
    (isEnd : id = record.first ∨ id = record.second)
    (found : (before .node)[id.toNat]? = some node)
    (linkedAt : LinkedAt (before .relationship) id node visited)
    (head : later.relationships = some (UInt32.ofNat (before .relationship).length)) :
    LinkedAt (stores .relationship) id later
      (UInt32.ofNat (before .relationship).length :: visited) := by
  have number : (UInt32.ofNat (before .relationship).length).toNat =
      (before .relationship).length := toNat_ofNat_of_lt (Nat.lt_of_succ_lt joins.room)
  have older := linkedAt.links.lt_length
  constructor
  · obtain ⟨new, newFound, relinked⟩ :=
      joins.exists_relinked List.getElem?_concat_length
    have first : new.Follows id none := by
      refine relinked.kept id none (wired.not_heads_new joins id) ?_
      exact ⟨fun _ => joins.previous.1, fun _ => joins.previous.2⟩
    rw [head]
    refine .cons (by rw [number, newFound]) first ?_
    rw [relinked.next, joins.next_eq isEnd found]
    refine linkedAt.links.reheaded ?_ (joins.heads_iff isEnd found) ?_
    · exact linkedAt.descending.imp fun above same => absurd same (UInt32.ne_of_lt above).symm
    · exact fun _ _ there =>
        joins.exists_relinked (getElem?_of_grown (List.prefix_append _ _) there)
  · refine linkedAt.descending.cons fun other member => ?_
    rw [gt_iff_lt, UInt32.lt_iff_toNat_lt, number]
    exact older other member
  · intro other
    rw [exists_end_iff joins, List.mem_cons]
    by_cases new : other.toNat = (before .relationship).length
    · have same : other = UInt32.ofNat (before .relationship).length :=
        UInt32.toNat.inj (new.trans number.symm)
      rw [new, List.getElem?_concat_length]
      refine iff_of_true (.inl same) ⟨record, rfl, ?_⟩
      exact isEnd.imp Eq.symm Eq.symm
    · have notNew : other ≠ UInt32.ofNat (before .relationship).length := by
        intro same
        subst same
        exact new number
      rw [mem_concat_iff new, ← linkedAt.all other]
      exact or_iff_right notNew

/-- A node away from a new relationship keeps its own. -/
private theorem linkedAt_away (joins : Joins before stores record) {id : RecordId}
    {node later : NodeRecord} {visited : List RecordId}
    (away : ¬(id = record.first ∨ id = record.second))
    (linkedAt : LinkedAt (before .relationship) id node visited)
    (same : later.relationships = node.relationships) :
    LinkedAt (stores .relationship) id later visited := by
  have notHead : ∀ number, ¬Joins.Heads record number id := by
    intro number ended
    rcases ended with ⟨first, -⟩ | ⟨second, -⟩
    · exact away (.inl first)
    · exact away (.inr second)
  refine ⟨?_, linkedAt.descending, fun other => ?_⟩
  · rw [same]
    refine linkedAt.links.changed fun visitedId _ record found => ?_
    obtain ⟨other, there, relinked⟩ :=
      joins.exists_relinked (getElem?_of_grown (List.prefix_append _ _) found)
    exact ⟨other, there, relinked.next id, fun previous =>
      relinked.kept id previous (notHead visitedId.toNat)⟩
  · rw [exists_end_iff joins]
    by_cases new : other.toNat = (before .relationship).length
    · rw [new, List.getElem?_concat_length]
      refine iff_of_false ?_ ?_
      · exact fun member => absurd new (Nat.ne_of_lt (linkedAt.links.lt_length other member))
      · intro given
        obtain ⟨_, isNew, isEnd⟩ := given
        obtain rfl := Option.some.inj isNew
        exact away (isEnd.imp Eq.symm Eq.symm)
    · rw [mem_concat_iff new]
      exact linkedAt.all other

theorem join (wired : Wired before) (joins : Joins before stores record) : Wired stores where
  ends := by
    have width : (stores .node).length = (before .node).length := by
      rw [joins.nodes, headed, headed, List.length_modify, List.length_modify]
    have isNode : ∀ {id : RecordId} {node : NodeRecord},
        (before .node)[id.toNat]? = some node → id.toNat < (before .node).length :=
      fun found => (List.getElem?_eq_some_iff.mp found).1
    intro later member
    obtain ⟨number, found⟩ := List.mem_iff_getElem?.mp member
    have inside := (List.getElem?_eq_some_iff.mp found).1
    rw [joins.relationships, length_linkedBack, length_linkedBack] at inside
    obtain ⟨same, sameFound, relinked⟩ := joins.exists_relinked (List.getElem?_eq_getElem inside)
    obtain rfl := Option.some.inj (found.symm.trans sameFound)
    rw [relinked.ends.1, relinked.ends.2, width]
    rcases List.mem_append.mp (List.getElem_mem inside) with former | new
    · exact wired.ends _ former
    · rw [List.mem_singleton.mp new]
      obtain ⟨_, source, -⟩ := joins.source
      obtain ⟨_, target, -⟩ := joins.target
      exact ⟨isNode source, isNode target⟩
  linked := by
    intro id later found
    obtain ⟨node, there, ⟨isEnd, head⟩ | ⟨away, same⟩⟩ := joins.exists_node found
    · obtain ⟨visited, linkedAt⟩ := wired.linked id node there
      exact ⟨_, linkedAt_end wired joins isEnd there linkedAt head⟩
    · obtain ⟨visited, linkedAt⟩ := wired.linked id node there
      exact ⟨_, linkedAt_away joins away linkedAt same⟩

end Wired

/-!
## Links in a session
-/

theorem Wired.behaves {graph : StoredGraph} {before stores : Stores} {call : Call} {answer : Answer}
    (wired : Wired before) (behaves : Behaves graph before call answer stores) : Wired stores := by
  cases behaves with
  | createNode ends =>
      rcases ends with ⟨_, -, -, node, relationship⟩ | ⟨record, bare, -, -, nodes, relationships⟩
      · exact wired.congr node relationship
      · exact wired.addNode bare nodes relationships
  | createRelationship ends =>
      rcases ends with ⟨_, -, -, node, relationship⟩ | ⟨-, -, record, -, -, joins⟩
      · exact wired.congr node relationship
      · exact wired.join joins
  | nodeFound | nodeMissing | relationshipFound | relationshipMissing | reopen => exact wired

namespace Session

variable {name : String} {session : Session} {before : Stores} {graph : StoredGraph}

theorem Holds.run_wired (holds : session.Holds name before) (represents : Represents before graph)
    (wired : Wired before) (calls : List Call) :
    ∃ stores, Holds name (session.run name calls).2 stores ∧ Wired stores := by
  induction calls generalizing session before graph with
  | nil => exact ⟨before, holds, wired⟩
  | cons call calls ih =>
      obtain ⟨stores, laterHolds, behaves⟩ := holds.step represents call
      obtain ⟨later, laterRepresents⟩ := behaves.exists_represents represents
      exact ih laterHolds laterRepresents (wired.behaves behaves)

/-- Whatever calls are made on a collection that was just made, the relationships of every node are
then linked in both directions. -/
theorem run_doublyLinked (fresh : session.IsFresh name) (calls : List Call) :
    ∃ nodes relationships, (session.run name calls).2.nodeRecords name = .ok nodes ∧
      (session.run name calls).2.relationshipRecords name = .ok relationships ∧
      DoublyLinked nodes relationships := by
  obtain ⟨stores, holds, wired⟩ :=
    fresh.holds_empty.run_wired represents_empty .empty calls
  exact ⟨_, _, holds.nodeRecords_eq, holds.relationshipRecords_eq, wired.linked⟩

/-- Three relationships between two nodes, one of them a loop. -/
theorem loop_doublyLinked :
    firstCollection.IsFresh "c" ∧ ∃ nodes relationships, nodes.length = 2 ∧
      relationships.length = 3 ∧ DoublyLinked nodes relationships := by
  refine ⟨isFresh_firstCollection, ?_⟩
  let calls : List Call :=
    [.createNode (.named "a"), .createNode (.named "b"), .createRelationship (.between 0 1 "X"),
      .createRelationship (.between 1 0 "Y"), .createRelationship (.between 1 1 "Z")]
  obtain ⟨nodes, relationships, nodesRead, relationshipsRead, linked⟩ :=
    run_doublyLinked isFresh_firstCollection calls
  have nodesCount : (((firstCollection.run "c" calls).2.nodeRecords "c").toOption.map
      List.length) = some 2 := by decide +kernel
  have relationshipsCount : (((firstCollection.run "c" calls).2.relationshipRecords "c").toOption.map
      List.length) = some 3 := by decide +kernel
  rw [nodesRead] at nodesCount
  rw [relationshipsRead] at relationshipsCount
  exact ⟨nodes, relationships, Option.some.inj nodesCount, Option.some.inj relationshipsCount,
    linked⟩

end Session

end GraphStore
