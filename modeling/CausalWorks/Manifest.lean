import CausalWorks.Causal
import CausalWorks.Lib.DepthFirst

/-!
# Manifest validation (`manifest.rs`)

`ManifestCfg.build` checks a manifest that has been read from JSON and builds the runtime one. A
`HashMap` or `HashSet` that is iterated is a list in the order that the running process happens to
iterate it.
-/

namespace CausalWorks
open DepthFirst (Color)

inductive ManifestError where
  | duplicateNode (id : NodeId)
  | danglingNode (id : NodeId)
  | badBudget (edgeFrom edgeTo : NodeId) (wcetNs : UInt64)
  | tripNodeUndeclared (id : NodeId)
  | tripNodeNotInterlock (id : NodeId)
  | dependencyCycle (id : NodeId)
  | empty
  deriving DecidableEq, Repr

inductive NodeMatcherCfg where
  | profinet (frameId : UInt16) (bitIndex : UInt8)
  | ros2Port (topicPort : UInt16)
  | fanucPose
  deriving DecidableEq, Repr

def NodeMatcherCfg.into : NodeMatcherCfg → NodeMatcher
  | .profinet frameId bitIndex => .profinetFrame frameId bitIndex
  | .ros2Port topicPort => .ros2Port topicPort
  | .fanucPose => .fanucPose

inductive ManifestWarning where
  | tripNodeUnreachable (id : NodeId)
  | orphanNode (id : NodeId)
  | suspiciouslyTightBudget (edgeFrom edgeTo : NodeId) (wcetNs : UInt64)
  deriving DecidableEq, Repr

structure NodeCfg where
  id : NodeId
  matcher : NodeMatcherCfg
  deriving DecidableEq, Repr

structure EdgeCfg where
  edgeFrom : NodeId
  edgeTo : NodeId
  wcetNs : UInt64
  deriving DecidableEq, Repr

structure ManifestCfg where
  nodes : List NodeCfg
  edges : List EdgeCfg
  tripNode : NodeId
  deriving DecidableEq, Repr

def maxSaneWcetNs : UInt64 := 60000000000
def tightBudgetNs : UInt64 := 1000

/-- The orders in which one process iterates a node map and a set of nodes. -/
structure IterationOrder where
  nodes : List (Sigma fun _ : NodeId => NodeMatcher) → List (Sigma fun _ : NodeId => NodeMatcher)
  nodes_perm : ∀ entries, (nodes entries).Perm entries
  starts : List NodeId → List NodeId
  starts_perm : ∀ ids, (starts ids).Perm ids

def IterationOrder.arrange (order : IterationOrder) (nodes : NodeTable) : NodeTable :=
  ⟨order.nodes nodes.entries,
    (List.perm_nodupKeys (order.nodes_perm nodes.entries)).mpr nodes.nodupKeys⟩

def IterationOrder.declared : IterationOrder :=
  { nodes := id, nodes_perm := fun _ => .refl _, starts := id, starts_perm := fun _ => .refl _ }

namespace ManifestCfg

abbrev Build := Except (Stop ManifestError)

def reject {α : Type} (error : ManifestError) : Build α := .error (.err error)

def declareNode (nodes : NodeTable) (n : NodeCfg) : Build NodeTable :=
  if n.id ∈ nodes then reject (.duplicateNode n.id)
  else .ok (nodes.insert n.id n.matcher.into)

def checkTripNode (nodes : NodeTable) (tripNode : NodeId) : Build Unit :=
  match nodes.lookup tripNode with
  | none => reject (.tripNodeUndeclared tripNode)
  | some (.profinetFrame _ _) => .ok ()
  | some _ => reject (.tripNodeNotInterlock tripNode)

def declareEdge (nodes : NodeTable) (edges : List DependencyEdge) (e : EdgeCfg) :
    Build (List DependencyEdge) :=
  if e.edgeFrom ∉ nodes then reject (.danglingNode e.edgeFrom)
  else if e.edgeTo ∉ nodes then reject (.danglingNode e.edgeTo)
  else if e.wcetNs = 0 ∨ maxSaneWcetNs < e.wcetNs then
    reject (.badBudget e.edgeFrom e.edgeTo e.wcetNs)
  else .ok (edges ++ [{ edgeFrom := e.edgeFrom, edgeTo := e.edgeTo, wcetNs := e.wcetNs }])

/-! ## Cycle detection -/

def pushChild (adj : NodeId → Option (List NodeId)) (e : DependencyEdge) :
    NodeId → Option (List NodeId) :=
  Function.update adj e.edgeFrom (some ((adj e.edgeFrom).getD [] ++ [e.edgeTo]))

def adjacency (edges : List DependencyEdge) : NodeId → Option (List NodeId) :=
  edges.foldl pushChild fun _ => none

def endpoints (edges : List DependencyEdge) : List NodeId :=
  edges.foldl (fun all e => (all.insert e.edgeFrom).insert e.edgeTo) []

/-- The `while let Some(..) = stack.last_mut()` loop; `fuel` bounds the number of iterations. -/
def search (adj : NodeId → Option (List NodeId)) :
    Nat → (NodeId → Color) → List (NodeId × Nat) → Build (NodeId → Color)
  | _, color, [] => .ok color
  | 0, _, _ :: _ => .error (.fault .loopBound)
  | fuel + 1, color, (node, idx) :: stack =>
      match (adj node).bind (·[idx]?) with
      | some child =>
        match color child with
        | .gray => reject (.dependencyCycle child)
        | .white =>
            search adj fuel (Function.update color child .gray)
              ((child, 0) :: (node, idx + 1) :: stack)
        | .black => search adj fuel color ((node, idx + 1) :: stack)
      | none => search adj fuel (Function.update color node .black) stack

def searchFrom (edges : List DependencyEdge) (color : NodeId → Color) (start : NodeId) :
    Build (NodeId → Color) :=
  if color start ≠ .white then .ok color
  else search (adjacency edges) ((endpoints edges).length + edges.length)
    (Function.update color start .gray) [(start, 0)]

def detectCycle (order : IterationOrder) (edges : List DependencyEdge) : Build Unit := do
  let _ ← (order.starts (endpoints edges)).foldlM (searchFrom edges) fun _ => .white
  return ()

def build (order : IterationOrder) (self : ManifestCfg) : Build DependencyManifest := do
  if self.nodes = [] then reject .empty else
  let nodes ← self.nodes.foldlM declareNode ∅
  checkTripNode nodes self.tripNode
  let edges ← self.edges.foldlM (declareEdge nodes) []
  detectCycle order edges
  return .new (order.arrange nodes) edges self.tripNode

/-! ## Lint -/

def countEnd (degree : NodeId → Option Nat) (id : NodeId) : NodeId → Option Nat :=
  Function.update degree id (some ((degree id).getD 0 + 1))

/-- `ManifestCfg::lint`; the set of node ids is iterated in the process's order. -/
def lint (order : IterationOrder) (self : ManifestCfg) : List ManifestWarning :=
  let nodeIds := (self.nodes.map NodeCfg.id).dedup
  let outdeg := self.edges.foldl (fun degree e => countEnd degree e.edgeFrom) fun _ => none
  let indeg := self.edges.foldl (fun degree e => countEnd degree e.edgeTo) fun _ => none
  let unreachable := if (indeg self.tripNode).getD 0 = 0 then
      [.tripNodeUnreachable self.tripNode] else []
  let orphans := (order.starts nodeIds).filterMap fun id =>
    let hasIn := decide (0 < (indeg id).getD 0)
    let hasOut := decide (0 < (outdeg id).getD 0)
    if !hasIn && !hasOut then some (.orphanNode id) else none
  let tight := self.edges.filterMap fun e =>
    if e.wcetNs < tightBudgetNs then
      some (.suspiciouslyTightBudget e.edgeFrom e.edgeTo e.wcetNs)
    else none
  unreachable ++ orphans ++ tight

end ManifestCfg

def Cell.cfg : ManifestCfg :=
  { nodes := [⟨amr, .ros2Port 7400⟩, ⟨fanuc, .fanucPose⟩, ⟨plc, .profinet 0x0002 0⟩]
    edges := [⟨amr, fanuc, 3000000⟩, ⟨fanuc, plc, 4000000⟩]
    tripNode := plc }

theorem Cell.build_cfg : cfg.build .declared = .ok manifest := by rfl

end CausalWorks
