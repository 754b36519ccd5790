import DataBinding.Engine
import DataBinding.Proofs.Run.Lasting

/-!
# Host code

What the program around the bindings may do, as a tree: it looks at the world, takes steps, makes bindings
under names, keeps handlers of its own, and goes on by what has come of that. It may end at any point
(`halt`). Scripts and handlers stand for such trees; a script that is only a list of acts is one of them
(`interpret_ofActs`).
-/

namespace DataBinding

open Effect

inductive Blueprint where
  | equality (config : Configuration) (flags : Flags) (left right : Expr)
  | action (config : Configuration) (flags : Flags) (call : Expr)
  | event (config : Configuration) (flags : Flags) (target : Value) (name : String) (acts : List Act)
  | command (config : Configuration) (flags : Flags) (target : Value) (name : String) (c : Command)

def Blueprint.create (host : Host) : Blueprint → Effect BindingId
  | equality config flags left right => EqualityBinding.create host config flags left right
  | action config flags call => ActionBinding.create host config flags call
  | event config flags target name acts => EventBinding.create host config flags target name (.script acts)
  | command config flags target name c => EventBinding.create host config flags target name (.command c)

/-- A run that does not succeed ends before it has begun. -/
def Effect.settled {α : Type} (x : Effect α) : Effect α := fun w =>
  match x w with
  | .ok a w' => .ok a w'
  | .error _ _ => .error .exhausted w

/-- Makes a binding and puts it under a name. A run in which that fails is looked at before it. -/
def Blueprint.bind (host : Host) (name : String) (b : Blueprint) : Effect Unit := do
  let id ← settled (b.create host)
  host.nameBinding name id

def Blueprint.tryBind (host : Host) (name : String) (b : Blueprint) : Effect (Except Error Unit) := do
  match (← attempt (b.create host)) with
  | .ok id =>
    host.nameBinding name id
    return .ok ()
  | .error e => return .error e

def Effect.listenNamed (k : EventKey) (name : String) : Effect Unit := do
  match (← get).namedHandlers.find? name with
  | some h => listen k h
  | none => pure ()

theorem lasts_listenNamed {R : World → World → Prop} (hR : Chains R) (k : EventKey) (name : String)
    (h : ∀ (w : World) g, w.namedHandlers.find? name = some g →
      R w ({ w with listenings := ⟨k, g, true⟩ :: w.listenings }.setHandlers k (w.handlersOf k ++ [g]))) :
    Lasts R (listenNamed k name) := by
  apply lasts_of_returns
  intro w
  unfold listenNamed
  rw [bind_get]
  cases hg : w.namedHandlers.find? name with
  | none => exact ⟨(), w, rfl, hR.refl w⟩
  | some g => exact ⟨(), _, rfl, h w g hg⟩

def Effect.unlistenNamed (k : EventKey) (name : String) : Effect Bool := do
  match (← get).namedHandlers.find? name with
  | some h => unlisten k h
  | none => return false

inductive HostCode where
  | done
  | fail (e : Error)
  /-- The run is looked at here and goes no further. -/
  | halt
  | look (next : World → HostCode)
  | act (a : Act) (next : Except Error Unit → HostCode)
  /-- Makes a binding that is sure to succeed. -/
  | bind (name : String) (b : Blueprint) (next : HostCode)
  | tryBind (name : String) (b : Blueprint) (next : Except Error Unit → HostCode)
  | makeHandler (name : String) (acts : List Act) (next : HostCode)
  | listen (k : EventKey) (handler : String) (next : HostCode)
  | unlisten (k : EventKey) (handler : String) (next : Bool → HostCode)

namespace HostCode

def run (host : Host) : HostCode → Effect Unit
  | done => pure ()
  | fail e => Effect.fail e
  | halt => throw .exhausted
  | look next => do (next (← get)).run host
  | act a next => do (next (← attempt (a.run host))).run host
  | bind name b next => do
    b.bind host name
    next.run host
  | tryBind name b next => do (next (← b.tryBind host name)).run host
  | makeHandler name acts next => do
    makeNamedHandler name acts
    next.run host
  | listen k handler next => do
    listenNamed k handler
    next.run host
  | unlisten k handler next => do (next (← unlistenNamed k handler)).run host

def Makes (sure tried : Blueprint → Prop) : HostCode → Prop
  | done => True
  | fail _ => True
  | halt => True
  | look next => ∀ w, (next w).Makes sure tried
  | act _ next => ∀ outcome, (next outcome).Makes sure tried
  | bind _ b next => sure b ∧ next.Makes sure tried
  | tryBind _ b next => tried b ∧ ∀ outcome, (next outcome).Makes sure tried
  | makeHandler _ _ next => next.Makes sure tried
  | listen _ _ next => next.Makes sure tried
  | unlisten _ _ next => ∀ found, (next found).Makes sure tried

def ofActs : List Act → HostCode
  | [] => done
  | a :: acts => act a fun outcome =>
    match outcome with
    | .ok () => ofActs acts
    | .error e => fail e

theorem ofActs_makes {sure tried : Blueprint → Prop} (acts : List Act) : (ofActs acts).Makes sure tried := by
  induction acts with
  | nil => trivial
  | cons a acts ih =>
    intro outcome
    cases outcome with
    | ok u => exact ih
    | error e => trivial

end HostCode

/-- Performs actions nested at most `fuel` deep, where scripts stand for host code. -/
def Engine.interpret (p : Platform) (scripts : List Act → HostCode) : Nat → Action → Effect Unit
  | 0, _ => throw .exhausted
  | fuel + 1, .script acts => (scripts acts).run ⟨p, Engine.interpret p scripts fuel⟩
  | fuel + 1, a => a.step ⟨p, Engine.interpret p scripts fuel⟩

def Platform.running (p : Platform) (scripts : List Act → HostCode) (fuel : Nat) : Host :=
  ⟨p, Engine.interpret p scripts fuel⟩

theorem attempt_rethrow {α β : Type} (x : Effect α) (f : Except Error α → Effect β)
    (hf : ∀ e, f (.error e) = Effect.fail e) : (attempt x >>= f) = (x >>= fun a => f (.ok a)) := by
  funext w
  cases hx : x w with
  | ok a w' =>
    rw [bind_of_ok (attempt_eq_ok.mpr hx), bind_of_ok hx]
  | error e w' =>
    rw [bind_of_error hx]
    cases e with
    | failed e =>
      rw [bind_of_ok (attempt_eq_failed.mpr hx), hf]
      rfl
    | exhausted =>
      have ha : attempt x w = .error .exhausted w' := by
        unfold attempt
        rw [hx]
      exact bind_of_error ha

theorem HostCode.run_ofActs (host : Host) (acts : List Act) :
    (ofActs acts).run host = acts.forM (Act.run host) := by
  induction acts with
  | nil => rfl
  | cons a acts ih =>
    rw [ofActs, HostCode.run, attempt_rethrow _ _ fun e => rfl]
    show (a.run host >>= fun u => (ofActs acts).run host) = _
    rw [ih]
    rfl

/-- Scripts that are only lists of acts are performed as such. -/
theorem Engine.interpret_ofActs (p : Platform) : Engine.interpret p HostCode.ofActs = Engine.perform p := by
  funext fuel
  induction fuel with
  | zero => rfl
  | succ fuel ih =>
    funext a
    cases a with
    | script acts =>
      rw [Engine.interpret, HostCode.run_ofActs, ih]
      rfl
    | follow id source target => rw [Engine.interpret, ih]; rfl; nofun
    | rerun id call => rw [Engine.interpret, ih]; rfl; nofun
    | once id inner => rw [Engine.interpret, ih]; rfl; nofun
    | command c => rw [Engine.interpret, ih]; rfl; nofun

end DataBinding
