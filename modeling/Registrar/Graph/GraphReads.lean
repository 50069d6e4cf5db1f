import Registrar.Common.Environment
import Registrar.Library.BreadthFirst
import Registrar.Library.Json
import Registrar.Store.Store

/-!
# Scoped graph reads

The recursive query that traverses the links between memories.  A scope is
checked at both endpoints of a link, in SQL, before the link is followed.  Rows
carry the audience as their metadata has it, which need not be a known one.
-/

namespace Registrar

open BreadthFirst

def AUDIENCE_RANK : List (String × Nat) :=
  [("tenant", 0), ("admins", 1), ("owner", 2)]

def DEFAULT_AUDIENCE : String := "tenant"

/-- `isAudienceVisibleToRole` of an audience text; an unknown one is hidden. -/
def isAudienceTextVisibleToRole (audience : Option String)
    (role : ReaderRole) : Bool :=
  match AUDIENCE_RANK.lookup (audience.getD DEFAULT_AUDIENCE) with
  | none => false
  | some rank => rank ≤ readerRoleClearance role

/-- The columns of a memory that a scope looks at. -/
structure GraphMemory where
  id : String
  tenantId : String
  /-- `$.audience` of the metadata, if it is there. -/
  audience : Option Json

abbrev GraphMemoryTable := Table (Table.DistinctKey GraphMemory.id)

structure GraphStore where
  memories : GraphMemoryTable
  /-- In rowid order. -/
  links : List MemoryLink

structure GraphReadScope where
  tenantId : Option String
  allowedTenantIds : Option (List String)
  readerRole : ReaderRole
  deriving DecidableEq, Repr

structure GraphNode where
  memoryId : String
  depth : Nat
  linkType : LinkType
  weight : ℚ
  deriving DecidableEq

/-- The parameters that a scope binds. -/
structure ScopeParameters where
  tenantId : Option String
  allowedTenantIds : Option (List String)
  audiences : List String
  legacyVisible : Bool
  deriving DecidableEq, Repr

def scopeParameters (scope : GraphReadScope) : ScopeParameters where
  tenantId := scope.tenantId
  allowedTenantIds := scope.allowedTenantIds
  audiences := (AUDIENCE_RANK.map Prod.fst).filter fun audience =>
    isAudienceTextVisibleToRole (some audience) scope.readerRole
  legacyVisible := isAudienceTextVisibleToRole none scope.readerRole

/-- The last condition on a row: an audience that is absent or `null`, or a text
among the ones that the role may see. -/
def audienceMatches (parameters : ScopeParameters) : Option Json → Bool
  | none | some .null => parameters.legacyVisible
  | some (.string audience) => parameters.audiences.contains audience
  | some (.bool _) | some (.number _) | some (.array _) | some (.object _) =>
      false

def readableRow (parameters : ScopeParameters) (memory : GraphMemory) : Bool :=
  parameters.tenantId.all (· = memory.tenantId) &&
    parameters.allowedTenantIds.all (·.contains memory.tenantId) &&
    audienceMatches parameters memory.audience

/-- `EXISTS` a readable row under this id. -/
def readableEndpoint (memories : GraphMemoryTable)
    (parameters : ScopeParameters) (id : String) : Bool :=
  memories.rows.any fun memory =>
    memory.id = id && readableRow parameters memory

def readableLink (memories : GraphMemoryTable) (parameters : ScopeParameters)
    (link : MemoryLink) : Bool :=
  readableEndpoint memories parameters link.sourceMemoryId &&
    readableEndpoint memories parameters link.targetMemoryId

/-- The row of a link that leaves this memory. -/
def linkNode (depth : Nat) (link : MemoryLink) : GraphNode where
  memoryId := link.targetMemoryId
  depth := depth
  linkType := link.linkType
  weight := link.weight

def linkNodes (links : List MemoryLink) (source : String) (depth : Nat) :
    List GraphNode :=
  (links.filter (·.sourceMemoryId = source)).map (linkNode depth)

/-- The recursive member of the query for one row. -/
def expandNode (links : List MemoryLink) (maxDepth : Int) (node : GraphNode) :
    List GraphNode :=
  if (node.depth : Int) < maxDepth then
    linkNodes links node.memoryId (node.depth + 1)
  else []

/-- The rows in the order of the queue.  No row of this depth is expanded, so
that there are no more rounds. -/
def graphRows (links : List MemoryLink) (start : String) (maxDepth : Int) :
    List GraphNode :=
  rounds (expandNode links maxDepth) maxDepth.toNat (linkNodes links start 1)

/-- `ORDER BY depth ASC, weight DESC`. -/
def NodePrecedes (left right : GraphNode) : Prop :=
  left.depth < right.depth ∨
    left.depth = right.depth ∧ right.weight ≤ left.weight

instance : DecidableRel NodePrecedes :=
  fun _ _ => inferInstanceAs (Decidable (_ ∨ _ ∧ _))

/-- The best path to every other memory.  Ties, which the query leaves open, stay
in the order in which they were found. -/
def rankedPaths (start : String) (rows : List GraphNode) : List GraphNode :=
  firstOfEach GraphNode.memoryId []
    ((rows.filter (·.memoryId ≠ start)).insertionSort NodePrecedes)

/-- The links that a traversal follows; without a scope it follows all. -/
def followedLinks (store : GraphStore) (scope : Option GraphReadScope) :
    List MemoryLink :=
  match scope with
  | none => store.links
  | some scope =>
      store.links.filter (readableLink store.memories (scopeParameters scope))

def traverse (store : GraphStore) (start : String) (maxDepth : Int)
    (scope : Option GraphReadScope) : List GraphNode :=
  rankedPaths start (graphRows (followedLinks store scope) start maxDepth)

/-- The row of a stored memory. -/
def CuratedMemory.graphMemory (memory : CuratedMemory) : GraphMemory where
  id := memory.id
  tenantId := memory.tenantId.value
  audience := memory.metadata.audience.map fun audience =>
    .string audience.text

theorem isAudienceTextVisibleToRole_text (audience : Option Audience)
    (role : ReaderRole) :
    isAudienceTextVisibleToRole (audience.map Audience.text) role =
      isAudienceVisibleToRole audience role := by
  cases audience with
  | none => cases role <;> rfl
  | some audience => cases audience <;> cases role <;> rfl

end Registrar
