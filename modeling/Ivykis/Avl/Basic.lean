import Mathlib.Data.Finset.Basic
import Ivykis.Basic
import Ivykis.Kit.Lts

/-!
# AVL trees (`iv_avl.c`)

The nodes are the user's: `struct iv_avl_node` is embedded in another structure, and the tree
links nodes by their addresses. The model has the four fields of a node as functions of its
address. A loop of the source takes a bound on its iterations and is a fault beyond it.
-/

namespace Ivykis

/-- The address of a `struct iv_avl_node`; a pointer to one is an `Option AvlPtr`. -/
abbrev AvlPtr := BitVec 64

/-- A tree root and all nodes. -/
structure AvlState where
  root   : Option AvlPtr
  left   : AvlPtr → Option AvlPtr
  right  : AvlPtr → Option AvlPtr
  parent : AvlPtr → Option AvlPtr
  height : AvlPtr → UInt8

/-- A `struct iv_avl_node **`. -/
inductive AvlRef where
  | root
  | left (a : AvlPtr)
  | right (a : AvlPtr)
  deriving DecidableEq, Repr

/-- Following a pointer. -/
def derefNode : Option AvlPtr → Except Fault AvlPtr
  | some a => .ok a
  | none   => .error .invalidAccess

namespace AvlState

/-- Read through a reference. -/
def get (st : AvlState) : AvlRef → Option AvlPtr
  | .root    => st.root
  | .left a  => st.left a
  | .right a => st.right a

def setLeft (st : AvlState) (a : AvlPtr) (p : Option AvlPtr) : AvlState :=
  { st with left := Function.update st.left a p }

def setRight (st : AvlState) (a : AvlPtr) (p : Option AvlPtr) : AvlState :=
  { st with right := Function.update st.right a p }

def setParent (st : AvlState) (a : AvlPtr) (p : Option AvlPtr) : AvlState :=
  { st with parent := Function.update st.parent a p }

def setHeight (st : AvlState) (a : AvlPtr) (h : UInt8) : AvlState :=
  { st with height := Function.update st.height a h }

/-- Write through a reference. -/
def set (st : AvlState) (ref : AvlRef) (p : Option AvlPtr) : AvlState :=
  match ref with
  | .root    => { st with root := p }
  | .left a  => st.setLeft a p
  | .right a => st.setRight a p

/-- `if (c != NULL) c->parent = p;` -/
def setParentOf (st : AvlState) (c p : Option AvlPtr) : AvlState :=
  { st with parent := match c with
      | some a => Function.update st.parent a p
      | none   => st.parent }

end AvlState

/-- `height`. -/
def avlHeight (st : AvlState) (p : Option AvlPtr) : ℕ :=
  match p with
  | some a => (st.height a).toNat
  | none   => 0

/-- `recalc_height`; the sum is an `int`, and the field keeps its low byte. -/
def recalcHeight (st : AvlState) (an : AvlPtr) : AvlState :=
  let hl := avlHeight st (st.left an)
  let hr := avlHeight st (st.right an)
  st.setHeight an (UInt8.ofNat (1 + if hl > hr then hl else hr))

/-- `balance`. -/
def avlBalance (st : AvlState) (an : AvlPtr) : ℤ :=
  (avlHeight st (st.right an) : ℤ) - avlHeight st (st.left an)

/-- `recalc_height` and `balance`, as the rest of the code calls them. They may be replaced by ones
that look whether the heights are right, and are a fault otherwise. -/
structure HeightOps where
  recalc  : AvlState → AvlPtr → Except Fault AvlState
  balance : AvlState → AvlPtr → Except Fault ℤ

/-- Those of the code. -/
@[simps]
def HeightOps.plain : HeightOps where
  recalc st an := .ok (recalcHeight st an)
  balance st an := .ok (avlBalance st an)

section Heights

variable (H : HeightOps)

/-- `rotate_left`. -/
def rotateLeftWith (st : AvlState) (ref : AvlRef) : Except Fault AvlState := do
  let b ← derefNode (st.get ref)
  let d ← derefNode (st.right b)
  let c := st.left d
  let st := st.setRight b c
  let st := st.setParentOf c (some b)
  let st ← H.recalc st b
  let st := st.setLeft d (some b)
  let st := st.setParent d (st.parent b)
  let st := st.setParent b (some d)
  let st ← H.recalc st d
  .ok (st.set ref (some d))

/-- `rotate_right`. -/
def rotateRightWith (st : AvlState) (ref : AvlRef) : Except Fault AvlState := do
  let d ← derefNode (st.get ref)
  let b ← derefNode (st.left d)
  let c := st.right b
  let st := st.setLeft d c
  let st := st.setParentOf c (some d)
  let st ← H.recalc st d
  let st := st.setRight b (some d)
  let st := st.setParent b (st.parent d)
  let st := st.setParent d (some b)
  let st ← H.recalc st b
  .ok (st.set ref (some b))

/-- `rotate_left_right`. -/
def rotateLeftRightWith (st : AvlState) (ref : AvlRef) : Except Fault AvlState := do
  let f ← derefNode (st.get ref)
  let b ← derefNode (st.left f)
  let d ← derefNode (st.right b)
  let c := st.left d
  let st := st.setRight b c
  let st := st.setParentOf c (some b)
  let st ← H.recalc st b
  let e := st.right d
  let st := st.setLeft f e
  let st := st.setParentOf e (some f)
  let st ← H.recalc st f
  let st := st.setLeft d (some b)
  let st := st.setRight d (some f)
  let st := st.setParent d (st.parent f)
  let st := st.setParent b (some d)
  let st := st.setParent f (some d)
  let st ← H.recalc st d
  .ok (st.set ref (some d))

/-- `rotate_right_left`. -/
def rotateRightLeftWith (st : AvlState) (ref : AvlRef) : Except Fault AvlState := do
  let b ← derefNode (st.get ref)
  let f ← derefNode (st.right b)
  let d ← derefNode (st.left f)
  let c := st.left d
  let st := st.setRight b c
  let st := st.setParentOf c (some b)
  let st ← H.recalc st b
  let e := st.right d
  let st := st.setLeft f e
  let st := st.setParentOf e (some f)
  let st ← H.recalc st f
  let st := st.setLeft d (some b)
  let st := st.setRight d (some f)
  let st := st.setParent d (st.parent b)
  let st := st.setParent b (some d)
  let st := st.setParent f (some d)
  let st ← H.recalc st d
  .ok (st.set ref (some d))

/-- `rebalance_node`. -/
def rebalanceNodeWith (st : AvlState) (ref : AvlRef) : Except Fault AvlState := do
  let root ← derefNode (st.get ref)
  let bal ← H.balance st root
  if bal = -2 then
    let l ← derefNode (st.left root)
    if (← H.balance st l) ≤ 0 then rotateRightWith H st ref else rotateLeftRightWith H st ref
  else if bal = 2 then
    let r ← derefNode (st.right root)
    if (← H.balance st r) < 0 then rotateRightLeftWith H st ref else rotateLeftWith H st ref
  else .ok st

/-- `find_reference`. -/
def findReference (st : AvlState) (an : AvlPtr) : AvlRef :=
  match st.parent an with
  | some p => if st.left p = some an then .left p else .right p
  | none   => .root

/-- `replace_reference`. -/
def replaceReference (st : AvlState) (an : AvlPtr) (newChild : Option AvlPtr) : AvlState :=
  st.set (findReference st an) newChild

/-- `rebalance_path`. -/
def rebalancePathWith : ℕ → AvlState → Option AvlPtr → Except Fault AvlState
  | _, st, none => .ok st
  | 0, _, some _ => .error .stuck
  | fuel + 1, st, some an => do
    let oldHeight := st.height an
    let st ← H.recalc st an
    let ref := findReference st an
    let st ← rebalanceNodeWith H st ref
    let an ← derefNode (st.get ref)
    if oldHeight = st.height an then .ok st
    else rebalancePathWith fuel st (st.parent an)

/-- The loop of `iv_avl_tree_insert` that looks for the place of `an`: the node to attach it to
and the reference to write, or nothing when an equal node is found. -/
def insertPlace (compare : AvlPtr → AvlPtr → ℤ) (st : AvlState) (an : AvlPtr) :
    ℕ → Option AvlPtr → AvlRef → Except Fault (Option (Option AvlPtr × AvlRef))
  | 0, _, _ => .error .stuck
  | fuel + 1, p, pp =>
    match st.get pp with
    | none   => .ok (some (p, pp))
    | some p =>
      let ret := compare an p
      if ret < 0 then insertPlace compare st an fuel (some p) (.left p)
      else if ret > 0 then insertPlace compare st an fuel (some p) (.right p)
      else .ok none

/-- `iv_avl_tree_insert`. -/
def ivAvlTreeInsertWith (compare : AvlPtr → AvlPtr → ℤ) (fuel : ℕ) (st : AvlState)
    (an : AvlPtr) : Except Fault (ℤ × AvlState) := do
  match ← insertPlace compare st an fuel none .root with
  | none => .ok (-1, st)
  | some (p, pp) =>
    let st := st.setLeft an none
    let st := st.setRight an none
    let st := st.setParent an p
    let st := st.setHeight an 1
    let st := st.set pp (some an)
    let st ← rebalancePathWith H fuel st p
    .ok (0, st)

/-- `iv_avl_tree_delete_leaf`. -/
def ivAvlTreeDeleteLeaf (st : AvlState) (an : AvlPtr) : Option AvlPtr × AvlState :=
  let st := replaceReference st an none
  (st.parent an, st)

/-- `while (victim->right != NULL) victim = victim->right;` and its mirror image. -/
def walkDown (next : AvlPtr → Option AvlPtr) : ℕ → AvlPtr → Except Fault AvlPtr
  | 0, _ => .error .stuck
  | fuel + 1, an =>
    match next an with
    | some an => walkDown next fuel an
    | none    => .ok an

/-- The choice of the victim in `iv_avl_tree_delete_nonleaf`, and its removal from its place. -/
def unlinkVictim (fuel : ℕ) (st : AvlState) (an : AvlPtr) :
    Except Fault (AvlPtr × AvlState) := do
  if avlHeight st (st.left an) > avlHeight st (st.right an) then
    let victim ← walkDown st.right fuel (← derefNode (st.left an))
    let st := replaceReference st victim (st.left victim)
    let st := st.setParentOf (st.left victim) (st.parent victim)
    .ok (victim, st)
  else
    let victim ← walkDown st.left fuel (← derefNode (st.right an))
    let st := replaceReference st victim (st.right victim)
    let st := st.setParentOf (st.right victim) (st.parent victim)
    .ok (victim, st)

/-- The rest of `iv_avl_tree_delete_nonleaf`: `victim` takes the place of `an`. -/
def replaceByVictim (st : AvlState) (an victim : AvlPtr) : AvlState :=
  let st := replaceReference st an (some victim)
  let st := st.setLeft victim (st.left an)
  let st := st.setRight victim (st.right an)
  let st := st.setParent victim (st.parent an)
  let st := st.setHeight victim (st.height an)
  let st := st.setParentOf (st.left victim) (some victim)
  st.setParentOf (st.right victim) (some victim)

/-- `iv_avl_tree_delete_nonleaf`. -/
def ivAvlTreeDeleteNonleaf (fuel : ℕ) (st : AvlState) (an : AvlPtr) :
    Except Fault (Option AvlPtr × AvlState) := do
  let (victim, st) ← unlinkVictim fuel st an
  let p := st.parent victim
  let p := if p = some an then some victim else p
  .ok (p, replaceByVictim st an victim)

/-- `iv_avl_tree_delete`. -/
def ivAvlTreeDeleteWith (fuel : ℕ) (st : AvlState) (an : AvlPtr) : Except Fault AvlState := do
  let (p, st) ←
    if st.left an = none ∧ st.right an = none then .ok (ivAvlTreeDeleteLeaf st an)
    else ivAvlTreeDeleteNonleaf fuel st an
  rebalancePathWith H fuel st p

end Heights

/-! ### The functions as they are -/

@[inherit_doc rotateLeftWith]
abbrev rotateLeft := rotateLeftWith .plain

@[inherit_doc rotateRightWith]
abbrev rotateRight := rotateRightWith .plain

@[inherit_doc rotateLeftRightWith]
abbrev rotateLeftRight := rotateLeftRightWith .plain

@[inherit_doc rotateRightLeftWith]
abbrev rotateRightLeft := rotateRightLeftWith .plain

@[inherit_doc rebalanceNodeWith]
abbrev rebalanceNode := rebalanceNodeWith .plain

@[inherit_doc rebalancePathWith]
abbrev rebalancePath := rebalancePathWith .plain

@[inherit_doc ivAvlTreeInsertWith]
abbrev ivAvlTreeInsert := ivAvlTreeInsertWith .plain

@[inherit_doc ivAvlTreeDeleteWith]
abbrev ivAvlTreeDelete := ivAvlTreeDeleteWith .plain

/-! ### Runs -/

/-- The `compare` function of a tree: the sign of its result orders the nodes. -/
structure AvlCompare where
  compare : AvlPtr → AvlPtr → ℤ
  swap    : ∀ a b, compare a b < 0 ↔ 0 < compare b a
  trans   : ∀ a b c, compare a b ≤ 0 → compare b c ≤ 0 → compare a c ≤ 0

/-- A tree, all nodes, and which of them have been inserted and not since deleted. -/
structure AvlSystem where
  mem    : AvlState
  inTree : Finset AvlPtr

/-- What a program does with its nodes. -/
inductive AvlOp where
  | insert (an : AvlPtr)
  | delete (an : AvlPtr)
  /-- The user overwrites the fields of a node that is not in the tree. -/
  | scribble (an : AvlPtr) (left right parent : Option AvlPtr) (height : UInt8)

/-- A bound on the iterations of a loop: all loops go along a path of the tree. -/
def avlFuel : ℕ := 2 ^ 8

/-- One operation: nodes are inserted while they are not in the tree and deleted while they are
in it. -/
def avlStep (cmp : AvlCompare) (s : AvlSystem) : AvlOp → Option AvlSystem
  | .insert an =>
    if an ∈ s.inTree then none
    else match ivAvlTreeInsert cmp.compare avlFuel s.mem an with
      | .ok (ret, mem) => some ⟨mem, if ret = 0 then insert an s.inTree else s.inTree⟩
      | .error _       => none
  | .delete an =>
    if an ∈ s.inTree then
      match ivAvlTreeDelete avlFuel s.mem an with
      | .ok mem  => some ⟨mem, s.inTree.erase an⟩
      | .error _ => none
    else none
  | .scribble an left right parent height =>
    if an ∈ s.inTree then none
    else
      let mem := (s.mem.setLeft an left).setRight an right
      some ⟨(mem.setParent an parent).setHeight an height, s.inTree⟩

/-- Nodes that have not been used. -/
def emptyNodes : AvlState :=
  ⟨none, fun _ => none, fun _ => none, fun _ => none, fun _ => 0⟩

/-- A tree from `INIT_IV_AVL_TREE` on; the nodes hold whatever they hold in `nodes`. -/
def avlLts (cmp : AvlCompare) (nodes : AvlState) : Kit.Lts AvlSystem AvlOp where
  init := ⟨{ nodes with root := none }, ∅⟩
  step := avlStep cmp

end Ivykis
