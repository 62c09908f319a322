import EntityModel.Proofs.Arrangement

/-!
# Properties and spans apart

The properties of a class may as well be kept apart from their spans, with a count of the aliases that have been
inserted: the next one comes to the same place of both lists, behind as many. The expansion does to such listings
what it does to the classes, and the count is that of the aliases which made a property (`listing_of_bind`).
-/

namespace EntityModel

/-- The properties of a class, their spans in the same order, and the number of aliases that have been inserted. -/
structure Listing where
  properties : List Property
  spans : List Span
  inserted : Nat

namespace Listing

/-- A listing with one more alias, behind `position` properties of other kinds and the aliases before it. -/
def insert (listing : Listing) (position : Nat) (a : Property.Alias) (span : Span) : Listing where
  properties := listing.properties.insertIdx (position + listing.inserted) (.alias a)
  spans := listing.spans.insertIdx (position + listing.inserted) span
  inserted := listing.inserted + 1

/-- The listings of all classes after an alias that makes a property, or none. -/
def expand (listings : List Listing) (pending : PendingAlias) : Option Property.Alias → List Listing
  | none => listings
  | some a => listings.modify pending.owner (·.insert pending.position a pending.declared.span)

end Listing

/-- The listing that a class stands for. -/
def Node.listing (node : Node) : Listing where
  properties := node.properties.map Spanned.value
  spans := node.properties.map Spanned.span
  inserted := node.properties.countP (·.value.isAlias)

namespace Graph

variable {settings : Settings} {files : List LoadedFile} {g state : Graph} {done before after : List PendingAlias}

theorem countP_isAlias_insertAlias {node : Node} {position : Nat} {entry : Spanned Property}
    (hroom : position + node.properties.countP (·.value.isAlias) ≤ node.properties.length)
    (hentry : entry.value.isAlias = true) :
    (Node.insertAlias node position entry).properties.countP (·.value.isAlias)
      = node.properties.countP (·.value.isAlias) + 1 := by
  rw [Node.insertAlias, (List.perm_insertIdx entry node.properties hroom).countP_eq, List.countP_cons,
    if_pos hentry]

theorem listing_insertAlias {node : Node} {position : Nat}
    (hroom : position + node.properties.countP (·.value.isAlias) ≤ node.properties.length) (a : Property.Alias)
    (span : Span) :
    (Node.insertAlias node position ⟨.alias a, span⟩).listing = node.listing.insert position a span := by
  have hcount := @countP_isAlias_insertAlias node position ⟨.alias a, span⟩ hroom rfl
  simp only [Node.listing, Listing.insert, Listing.mk.injEq]
  refine ⟨?_, ?_, hcount⟩
  · rw [Node.insertAlias, List.map_insertIdx]
  · rw [Node.insertAlias, List.map_insertIdx]

theorem listing_expandAlias {index : SourceIndex} {pending : PendingAlias} {node : Node}
    (hnode : g.nodes[pending.owner]? = some node)
    (hroom : pending.position + node.properties.countP (·.value.isAlias) ≤ node.properties.length) :
    (expandAlias index g pending).1.nodes.map Node.listing
      = Listing.expand (g.nodes.map Node.listing) pending (g.aliasProperty? index node pending.declared).1 := by
  rcases ha : (g.aliasProperty? index node pending.declared).1 with _ | a
  · rw [expandAlias_eq_none hnode ha]
    rfl
  · have hlisting : (g.nodes.map Node.listing)[pending.owner]? = some node.listing := by
      rw [List.getElem?_map, hnode, Option.map_some]
    rw [expandAlias_eq_some hnode ha, Listing.expand, modify_eq_set hlisting, List.map_set,
      listing_insertAlias hroom]

/-- **Properties and spans move together.** Each alias of a bound graph is inserted into the listings of the classes,
behind as many aliases as those of its class that made a property before it. -/
theorem listing_of_bind {problems : List Diagnostic} (hbind : Graph.bind files = .ok (g, problems))
    (settings : Settings) {a : PendingAlias} (hpending : g.pending = before ++ a :: after) :
    let index := (sourceIndex settings g).1
    let state := (Diagnostic.collect (expandAlias index) { g with pending := [] } before).1
    ∃ node, state.nodes[a.owner]? = some node
      ∧ node.listing.inserted = (g.insertedAt settings a.owner before).length
      ∧ (expandAlias index state a).1.nodes.map Node.listing
        = Listing.expand (state.nodes.map Node.listing) a (state.aliasProperty? index node a.declared).1 := by
  intro index state
  have hwaiting := waiting_of_bind hbind
  have hstate : g.Expanding settings before state := expanding_of_bind hbind hpending
  obtain ⟨node, hnode, hroom, -⟩ := hstate.room hwaiting (bound_of_bind hbind).names hpending
  obtain ⟨first, hfirst, -⟩ := hwaiting.placed a (hpending ▸ List.mem_append_right _ List.mem_cons_self)
  obtain ⟨node', hnode', -, hexpands⟩ := hstate a.owner first hfirst
  obtain rfl : node' = node := Option.some.inj (hnode'.symm.trans hnode)
  exact ⟨node', hnode, hexpands.aliases, listing_expandAlias hnode hroom⟩

end Graph

end EntityModel
