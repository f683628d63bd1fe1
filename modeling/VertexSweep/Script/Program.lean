import VertexSweep.Script.Rule

/-! Carrying out scripts: a script becomes a vertex program whose state is the log of what it has
seen. Reading or writing an edge that a vertex does not have ends the run. -/

namespace VertexSweep.Script

/-- An entry of the log. -/
inductive Entry where
  | update (iteration : UInt32) (id : VertexId)
  /-- Everything that an update can read: the value of its vertex, the edges on each side, all
  edges, and the neighbors. -/
  | probe (iteration : UInt32) (id : VertexId) (value : UInt32)
    (inEdges outEdges edges : List (Edge UInt32)) (neighbors : List VertexId)
  /-- A hook ran, around the given window if any, and left this wish for the end. -/
  | hook (point : HookPoint) (iteration : UInt32) (window : Option Window) (last : Option UInt32)
  | round (summary : RoundSummary)
deriving DecidableEq, Repr

/-- The log, latest entry last. -/
abbrev Log := Array Entry

/-- The view of a script on its vertex. -/
abbrev Site := View UInt32 UInt32

def Side.links (side : Side) (view : Site) : Array Link :=
  match side with
  | inward => view.inLinks
  | outward => view.outLinks
  | both => view.links

/-- The link with the given number on one side. -/
def Side.link (side : Side) (view : Site) (i : Nat) : Except Fault Link :=
  match (side.links view)[i]? with
  | some l => .ok l
  | none => .error .noSuchEdge

def Expr.eval (ctx : Context) (view : Site) : Expr → Except Fault UInt32
  | literal n => .ok n
  | id => .ok view.id
  | value => .ok view.value
  | iteration => .ok ctx.iteration
  | degree side => .ok (UInt32.ofNat (side.links view).size)
  | leastIn => .ok ((view.inEdges.map (·.value)).foldl (fun a b => if b < a then b else a)
      4294967295)
  | greatest => .ok ((view.edges.map (·.value)).foldl (fun a b => if a < b then b else a) 0)
  | ceiling => .ok ctx.settings.maxIterations
  | edge side i => return view.read (← side.link view i)
  | far side i => return (← side.link view i).far
  | plus a b => do
    let x ← a.eval ctx view
    let y ← b.eval ctx view
    return x + y
  | minus a b => do
    let x ← a.eval ctx view
    let y ← b.eval ctx view
    return if y ≤ x then x - y else 0
  | least a b => do
    let x ← a.eval ctx view
    let y ← b.eval ctx view
    return if y < x then y else x

def Condition.holds (ctx : Context) (view : Site) : Condition → Except Fault Bool
  | always => .ok true
  | selective => .ok ctx.settings.selective
  | less a b => do
    let x ← a.eval ctx view
    let y ← b.eval ctx view
    return x < y
  | equal a b => do
    let x ← a.eval ctx view
    let y ← b.eval ctx view
    return x == y
  | differ a b => do
    let x ← a.eval ctx view
    let y ← b.eval ctx view
    return x != y

/-- An update in progress. -/
structure Scene where
  view : Site
  log : Log
  requests : Array Request := #[]
  activity : Activity := .quiet

/-- Carries out an action; one that fails does nothing. -/
def Action.perform (ctx : Context) (s : Scene) : Action → Except Fault Scene
  | changed => .ok { s with activity := .changed }
  | set e => do
    let x ← e.eval ctx s.view
    return { s with view := s.view.setValue x }
  | setEdge side i e => do
    let x ← e.eval ctx s.view
    let l ← side.link s.view i
    return { s with view := s.view.write l x }
  | broadcast e => do
    let x ← e.eval ctx s.view
    return { s with view := s.view.broadcast x }
  | task e urgent => do
    let v ← e.eval ctx s.view
    return { s with requests := s.requests.push (.add v urgent) }
  | tasks urgent =>
    .ok { s with requests := s.requests ++ (s.view.links.map fun l => .add l.far urgent) }
  | untask first last => do
    let lo ← first.eval ctx s.view
    let hi ← last.eval ctx s.view
    return { s with requests := s.requests.push (.remove lo hi) }
  | fail => .error (.misuse s.view.id .scripted)
  | probe =>
    .ok { s with log := s.log.push (.probe ctx.iteration s.view.id s.view.value s.view.inEdges
      s.view.outEdges s.view.edges s.view.neighbors) }

/-- Carries out actions one after the other, up to the first that fails. -/
def performAll (ctx : Context) : List Action → Scene → Except Fault Unit × Scene
  | [], s => (.ok (), s)
  | a :: rest, s =>
    match a.perform ctx s with
    | .ok s => performAll ctx rest s
    | .error fault => (.error fault, s)

/-- Applies rules one after the other, up to the first failure. -/
def applyAll (ctx : Context) : List Rule → Scene → Except Fault Unit × Scene
  | [], s => (.ok (), s)
  | r :: rest, s =>
    if r.iteration.admits ctx.iteration.toNat && r.vertex.admits s.view.id.toNat then
      match r.condition.holds ctx s.view with
      | .error fault => (.error fault, s)
      | .ok false => applyAll ctx rest s
      | .ok true =>
        match performAll ctx r.actions s with
        | (.ok (), s) => applyAll ctx rest s
        | (.error fault, s) => (.error fault, s)
    else applyAll ctx rest s

namespace Source

def update (src : Source) (ctx : Context) (log : Log) (view : Site) :
    Update Log UInt32 UInt32 :=
  let log := if src.trace then log.push (.update ctx.iteration view.id) else log
  match applyAll ctx src.rules { view, log } with
  | (result, s) =>
    { state := s.log, view := s.view, requests := s.requests
      verdict := result.map fun _ => s.activity }

/-- Whether a hook rule applies at a point of the run. -/
def applies (point : HookPoint) (control : Control) (window : Option Window) (h : HookRule) :
    Bool :=
  h.point == point && h.iteration.admits control.iteration.toNat &&
    match window with
    | none => true
    | some w => h.start.admits w.first.toNat

/-- The hook at a point of the run: what the rules ask for is heeded in order, and logged. -/
def hook (src : Source) (point : HookPoint) (window : Option Window) : Hook Log :=
  fun control log =>
    let wishes := (src.hooks.filter (applies point control window)).map (·.last)
    let after := wishes.foldl Control.endAfter control
    let log :=
      if src.trace then log.push (.hook point control.iteration window after.last) else log
    (log, if wishes.isEmpty then none else after.last)

/-- The program that carries out a script. -/
def program (src : Source) : VertexProgram Log UInt32 UInt32 where
  update := src.update
  beforeIteration := src.hook .beforeIteration none
  afterIteration round control log :=
    let (log, wish) := src.hook .afterIteration none control log
    (if src.trace then log.push (.round round) else log, wish)
  beforeWindow w := src.hook .beforeWindow (some w)
  afterWindow w := src.hook .afterWindow (some w)

end Source

end VertexSweep.Script
