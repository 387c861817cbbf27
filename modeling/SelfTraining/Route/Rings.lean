import SelfTraining.Route.Model

/-!
Assembling the rings of a multipolygon.

`TrackRec` looks for a ring by backtracking: it shares the flags of the ways used and the
nodes collected between all its calls, and undoes its own writes when a branch fails. The
calls are bounded by a fuel that the number of open ways covers. `front()` and `back()` of
an empty vector are a fault.

A member is numbered as in the source by an `int`; `-1` marks a way that a ring has used.
`process` takes the pointer `ways` before it appends to `m_Ways`. Here is what it comes to as
long as the vector does not move; what it does on the storage of the vector is
`processStored`.
-/

namespace SelfTraining.Route

/-- What ends a call without a result. -/
inductive Fault
  | emptyVector | outOfFuel
  deriving DecidableEq

/-- The way with number `i`; no number outside the vector names one. -/
def wayAt (ways : List Way) : ℤ → Way
  | .ofNat n => ways.getD n ⟨[]⟩
  | .negSucc _ => ⟨[]⟩

/-- The result of `TrackRec` with the two buffers it shares. -/
structure Tracked where
  found : Bool
  used : List Bool
  nodes : List ℕ
  deriving DecidableEq

section Track

variable (openWays : List ℤ) (ways : List Way)

/-- The nodes of the way at position `i` of a list of way numbers. -/
def nodesAt (i : ℕ) : List ℕ := (wayAt ways (openWays.getD i (-1))).nodes

/-- The loop of `TrackRec` over the first way of a ring. -/
def tryFirst (rec : List Bool → List ℕ → Except Fault Tracked) :
    List ℕ → List Bool → List ℕ → Except Fault Tracked
  | [], used, nodes => .ok ⟨false, used, nodes⟩
  | i :: is, used, nodes =>
    if used.getD i true then tryFirst rec is used nodes
    else
      match rec (used.set i true) (nodesAt openWays ways i) with
      | .error e => .error e
      | .ok ⟨true, used', nodes'⟩ => .ok ⟨true, used', nodes'⟩
      | .ok ⟨false, used', _⟩ => tryFirst rec is (used'.set i false) []

/-- The loop of `TrackRec` over the ways that go on from `tail`. -/
def tryNext (rec : List Bool → List ℕ → Except Fault Tracked) (tail : ℕ) :
    List ℕ → List Bool → List ℕ → Except Fault Tracked
  | [], used, nodes => .ok ⟨false, used, nodes⟩
  | i :: is, used, nodes =>
    if used.getD i true then tryNext rec tail is used nodes
    else
      match (nodesAt openWays ways i).head?, (nodesAt openWays ways i).getLast? with
      | some wayHead, some wayTail =>
        if wayHead = tail ∨ wayTail = tail then
          match rec (used.set i true) (nodes ++
              if wayHead = tail then nodesAt openWays ways i
              else (nodesAt openWays ways i).reverse) with
          | .error e => .error e
          | .ok ⟨true, used', nodes'⟩ => .ok ⟨true, used', nodes'⟩
          | .ok ⟨false, used', nodes'⟩ =>
            tryNext rec tail is (used'.set i false) (nodes'.take nodes.length)
        else tryNext rec tail is used nodes
      | _, _ => .error .emptyVector

def trackRec : ℕ → List Bool → List ℕ → Except Fault Tracked
  | 0, _, _ => .error .outOfFuel
  | fuel + 1, used, nodes =>
    match nodes.head?, nodes.getLast? with
    | some head, some tail =>
      if head = tail ∧ 1 < nodes.length then .ok ⟨true, used, nodes⟩
      else tryNext openWays ways (trackRec fuel) tail (List.range openWays.length) used nodes
    | _, _ => tryFirst openWays ways (trackRec fuel) (List.range openWays.length) used nodes

/-- The nodes of a ring and the open ways with those of the ring marked; no nodes, and the
open ways as they were, when there is none. -/
def track : Except Fault (List ℕ × List ℤ) :=
  match trackRec openWays ways (openWays.length + 1)
      (List.replicate openWays.length false) [] with
  | .error e => .error e
  | .ok ⟨true, used, nodes⟩ =>
    .ok (nodes, (List.range openWays.length).map fun i =>
      if used.getD i false then -1 else openWays.getD i (-1))
  | .ok ⟨false, _, nodes⟩ => .ok (nodes, openWays)

end Track

def isClosed (w : Way) : Bool :=
  decide (1 < w.nodes.length) && (w.nodes.head? == w.nodes.getLast?)

/-- The local vectors of `process` and `m_Ways`, when the loop is left. -/
structure Processed where
  closed : List ℤ
  left : List ℤ
  mWays : List Way
  deriving DecidableEq

/-- The loop of `process` while the ways stay where `ways` points; it is not taken anew. -/
def processLoopUnmoved (ways : List Way) : ℕ → Processed → Except Fault Processed
  | 0, _ => .error .outOfFuel
  | fuel + 1, st =>
    if st.left = [] then .ok st
    else
      match track st.left ways with
      | .error e => .error e
      | .ok (newNodes, left) =>
        if newNodes = [] then .ok { st with left := left }
        else processLoopUnmoved ways fuel
          { closed := st.closed ++ [(st.mWays.length : ℤ)]
            left := left.filter fun v => !decide (v < 0)
            mWays := st.mWays ++ [⟨newNodes⟩] }

def processUnmoved (mWays : List Way) (waysNums : List ℤ) : Except Fault Processed :=
  processLoopUnmoved mWays (waysNums.length + 1)
    { closed := waysNums.filter fun i => isClosed (wayAt mWays i)
      left := waysNums.filter fun i => !isClosed (wayAt mWays i)
      mWays := mWays }

structure Multipolygon where
  outer : List ℤ
  inner : List ℤ
  deriving DecidableEq

/-- The ways and the multipolygon after `BuildRings`, if the ways stay where they are. -/
def buildRingsUnmoved (mWays : List Way) (mp : Multipolygon) :
    Except Fault (List Way × Multipolygon) :=
  match processUnmoved mWays mp.outer with
  | .error e => .error e
  | .ok outer =>
    match processUnmoved outer.mWays mp.inner with
    | .error e => .error e
    | .ok inner => .ok (inner.mWays, ⟨outer.closed, inner.closed⟩)

end SelfTraining.Route
