import Mathlib.Data.List.Basic
import DataBinding.Proofs.Trigger.Collect

/-!
# Sessions

An interpreter serves one request after the other, and between two of them the world may become any other. What it keeps
are the receivers. They stay, and each answer is about them (`receivers_resolved_once`); in particular what is collected
goes with the getters and setters that were built before (`collected_with_compiled`).
-/

namespace DataBinding

open Effect Compile

/-- What an interpreter can be asked for. The delegate of a call is its getter. -/
inductive Request where
  | getter (e : Expr)
  | setter (custom : Option (Table DeclId CustomSetter)) (e : Expr)
  | target (e : Expr)
  | triggers (config : Configuration) (e : Expr)

inductive Answer where
  | getter (g : Option Getter)
  | setter (g : Option Setter)
  | target (t : Option Target)
  | triggers (ts : List Trigger)

namespace Request

def expr : Request → Expr
  | getter e => e
  | setter _ e => e
  | target e => e
  | triggers _ e => e

def run (host : Host) : Request → Compile Answer
  | getter e => do return .getter (← e.getter? host)
  | setter custom e => do return .setter (← e.setter? host custom)
  | target e => do return .target (← e.findTarget? host)
  | triggers config e => do return .triggers (← e.triggers host config)

end Request

/-- The answer to a request is about these receivers, and what it has copied from them it has from this world. -/
def Answer.Uses (host : Host) (rs : Receivers) (w : World) : Request → Answer → Prop
  | .getter e, .getter (some g) => Expr.Have rs e.compiledAccesses g.reads
  | .setter _ e, .setter (some g) => ∃ x r, e.assigned? = some x ∧ x.receiver? rs = some r ∧ g.WritesTo w r
  | .target e, .target (some t) => ∃ r, e.receiver? rs = some r ∧ t = r.target w
  | .triggers config e, .triggers ts => ∃ seen : List (Expr × World), seen.map Prod.fst = e.accesses ∧
      (∀ v ∈ seen, v.1.Settled rs) ∧ ts = Expr.triggersOf host.types config rs seen
  | _, _ => True

structure Turn where
  world : World
  request : Request

def Compile.receiversAfter {α : Type} : EStateM.Result Stop Workbench α → Receivers
  | .ok _ s => s.receivers
  | .error _ s => s.receivers

namespace Turn

def run (host : Host) (rs : Receivers) (t : Turn) : EStateM.Result Stop Workbench Answer :=
  t.request.run host ⟨t.world, rs⟩

def after (host : Host) (rs : Receivers) (ts : List Turn) : Receivers :=
  ts.foldl (fun rs t => receiversAfter (t.run host rs)) rs

end Turn

section
variable {host : Host} {rs rs' : Receivers}

theorem Expr.triggersOf_stay {types : TypeTable} {config : Configuration} {seen : List (Expr × World)}
    (hseen : ∀ v ∈ seen, v.1.Settled rs) (hs : Receivers.Stay rs rs') :
    triggersOf types config rs' seen = triggersOf types config rs seen :=
  List.filterMap_congr fun v hv => trigger?_stay (hseen v hv) hs

theorem Answer.Uses.stay {w : World} {q : Request} {a : Answer} (h : a.Uses host rs w q) (hs : Receivers.Stay rs rs') :
    a.Uses host rs' w q := by
  cases q with
  | getter e =>
    cases a with
    | getter g =>
      cases g with
      | some g => exact Expr.Have.stay h hs
      | none => trivial
    | _ => trivial
  | setter custom e =>
    cases a with
    | setter g =>
      cases g with
      | some g =>
        obtain ⟨x, r, hx, hr, hg⟩ := h
        exact ⟨x, r, hx, Expr.receiver?_stay hs hr, hg⟩
      | none => trivial
    | _ => trivial
  | target e =>
    cases a with
    | target t =>
      cases t with
      | some t =>
        obtain ⟨r, hr, ht⟩ := h
        exact ⟨r, Expr.receiver?_stay hs hr, ht⟩
      | none => trivial
    | _ => trivial
  | triggers config e =>
    cases a with
    | triggers ts =>
      obtain ⟨seen, hfst, hseen, rfl⟩ := h
      exact ⟨seen, hfst, fun v hv => (hseen v hv).stay hs, (Expr.triggersOf_stay hseen hs).symm⟩
    | _ => trivial

theorem Request.run_extends (q : Request) : Lasts (Expr.Extends host q.expr.parts) (q.run host) := by
  have hc := Expr.extends_chains host q.expr.parts
  cases q with
  | getter e => exact always_bind hc (Expr.getter?_extends e) fun _ => always_pure hc _
  | setter custom e => exact always_bind hc (Expr.setter?_extends custom e) fun _ => always_pure hc _
  | target e => exact always_bind hc (Expr.findTarget?_extends e) fun _ => always_pure hc _
  | triggers config e => exact always_bind hc (Expr.triggers_extends config e) fun _ => always_pure hc _

theorem Request.run_uses {q : Request} {a : Answer} {s s' : Workbench} (h : q.run host s = .ok a s') :
    a.Uses host s'.receivers s'.world q := by
  cases q with
  | getter e =>
    obtain ⟨g, s₁, hg, h⟩ := bind_eq_ok.mp h
    cases h
    cases g with
    | some g => exact Expr.getter?_reads e hg
    | none => trivial
  | setter custom e =>
    obtain ⟨g, s₁, hg, h⟩ := bind_eq_ok.mp h
    cases h
    cases g with
    | some g => exact Expr.setter?_writes e hg
    | none => trivial
  | target e =>
    obtain ⟨t, s₁, ht, h⟩ := bind_eq_ok.mp h
    cases h
    cases t with
    | some t => exact Expr.findTarget?_receiver ht
    | none => trivial
  | triggers config e =>
    obtain ⟨ts, s₁, hts, h⟩ := bind_eq_ok.mp h
    cases h
    rw [Expr.triggers_eq] at hts
    obtain ⟨seen, hv, hfst, rfl⟩ := Expr.collected_iff.mp hts
    exact ⟨seen, hfst, hv.settled, rfl⟩

namespace Turn

theorem run_stay (host : Host) (rs : Receivers) (t : Turn) : Receivers.Stay rs (receiversAfter (t.run host rs)) := by
  have hx : Lasts (Expr.Extends host t.request.expr.parts) (t.request.run host) := t.request.run_extends
  cases hr : t.run host rs with
  | ok a s => exact (hx.ok _ a s hr).toStay
  | error e s => exact (hx.error _ e s hr).2.toStay

theorem after_append (host : Host) (rs : Receivers) (ts us : List Turn) :
    after host rs (ts ++ us) = after host (after host rs ts) us := List.foldl_append

theorem after_stay (host : Host) (rs : Receivers) (ts : List Turn) : Receivers.Stay rs (after host rs ts) := by
  induction ts generalizing rs with
  | nil => exact stay_chains.refl rs
  | cons t ts ih => exact stay_chains.trans (t.run_stay host rs) (ih _)

end Turn

end

/-- Whatever the world becomes between the turns: receivers that are there before a turn are there after it and all later
ones, and none of them has been replaced. An answer is about the receivers that its nodes have in the end. A turn that fails
has left receivers only for nodes whose targets had values, and none for a node whose search it has failed with. -/
theorem receivers_resolved_once (host : Host) (rs : Receivers) (before : List Turn) (turn : Turn) (later : List Turn) :
    Receivers.Stay (Turn.after host rs before) (Turn.after host rs (before ++ turn :: later)) ∧
      (∀ a s, turn.run host (Turn.after host rs before) = .ok a s →
        a.Uses host (Turn.after host rs (before ++ turn :: later)) s.world turn.request) ∧
      ∀ e s, turn.run host (Turn.after host rs before) = .error e s →
        Turn.after host rs (before ++ [turn]) = s.receivers ∧
        (∀ n r, (Turn.after host rs before).find? n = none → s.receivers.find? n = some r →
          ∃ x ∈ turn.request.expr.parts, x.node? = some n ∧
            Expr.Resolved host ⟨turn.world, Turn.after host rs before⟩ x r) ∧
        ∀ node target m, Expr.member node target m ∈ turn.request.expr.parts →
          (∀ x ∈ target.parts, x.node? ≠ some node) → ∀ s₁,
            Expr.memberReceiver host node target m s₁ = .error e s → s.receivers.find? node = none := by
  have hlater : Turn.after host rs (before ++ turn :: later) =
      Turn.after host (receiversAfter (turn.run host (Turn.after host rs before))) later :=
    Turn.after_append host rs before (turn :: later)
  refine ⟨?_, fun a s h => ?_, fun e s h => ⟨?_, ?_, ?_⟩⟩
  · rw [Turn.after_append]
    exact Turn.after_stay host _ _
  · rw [hlater, h]
    exact (Request.run_uses h).stay (Turn.after_stay host _ _)
  · rw [Turn.after_append]
    exact congrArg receiversAfter h
  · exact (turn.request.run_extends.error _ e s h).2.new
  · exact fun node target m _ hn s₁ hs => Expr.memberReceiver_absent hn hs

/-- What is collected after any turns is one trigger for each access with a source of change, in the order in which the
accesses are written. It is on the receiver that the access has, a record as it is then, or on the type of a static member.
Whatever was built before reads and writes through the same receivers. -/
theorem collected_with_compiled {host : Host} {rs : Receivers} {turns : List Turn} {config : Configuration} {e : Expr}
    {w : World} {ts : List Trigger} {s : Workbench}
    (h : e.triggers host config ⟨w, Turn.after host rs turns⟩ = .ok ts s) :
    (∃ seen, Expr.Visits host config ⟨w, Turn.after host rs turns⟩ seen s ∧ seen.map Prod.fst = e.accesses ∧
      (∀ v ∈ seen, v.1.Settled s.receivers) ∧ ts = Expr.triggersOf host.types config s.receivers seen) ∧
      (∀ t ∈ ts, t.isSubscribed = false) ∧
      ∀ before turn later a s₁, turns = before ++ turn :: later →
        turn.run host (Turn.after host rs before) = .ok a s₁ → a.Uses host s.receivers s₁.world turn.request := by
  have hlast : Receivers.Stay (Turn.after host rs turns) s.receivers := ((Expr.triggers_extends config e).ok _ _ _ h).toStay
  have hnone := Expr.triggers_unsubscribed h
  rw [Expr.triggers_eq] at h
  obtain ⟨seen, hv, hseen, rfl⟩ := Expr.collected_iff.mp h
  refine ⟨⟨seen, hv, hseen, hv.settled, rfl⟩, fun t ht => ?_, ?_⟩
  · exact Option.isSome_eq_false_iff.mpr (Option.isNone_iff_eq_none.mpr (hnone t ht))
  · rintro before turn later a s₁ rfl hrun
    -- The answer is about the receivers right after its turn, and these have stayed since.
    have hbuilt : a.Uses host (Turn.after host rs (before ++ [turn])) s₁.world turn.request := by
      rw [Turn.after_append]
      show a.Uses host (receiversAfter (turn.run host (Turn.after host rs before))) s₁.world turn.request
      rw [hrun]
      exact Request.run_uses hrun
    rw [List.append_cons, Turn.after_append] at hlast
    exact hbuilt.stay (stay_chains.trans (Turn.after_stay host _ later) hlast)

/-! ## Maps -/

namespace Maps

def home : MemberSpec := ⟨"Home", .property, ⟨6⟩, false, some (.slot "Home"), some (.slot "Home" none true)⟩

def scale : MemberSpec := ⟨"Scale", .property, .int, true, some (.stored (.integer 1)), some (.stored none)⟩

def x : MemberSpec := ⟨"X", .field, .int, false, some (.recordField "X"), some (.recordField "X")⟩

def platform : Platform where
  types := ⟨[{ name := "Pin", kind := .value, members := [x] },
    { name := "Map", notifies := true, members := [home, scale] }]⟩
  classLabel _ := "Model"

def host : Host := ⟨platform, fun _ => pure ()⟩

def map (name : String) : ObjectRef := ⟨name, ⟨5⟩, .model⟩

/-- `Home.X` of a map, with two nodes. -/
def column (name : String) (n : Nat) : Expr :=
  .member ⟨n + 1⟩ (.member ⟨n⟩ (.constant (.object (map name)) ⟨5⟩ (some name)) { home with id := ⟨⟨5⟩, 0⟩ })
    { x with id := ⟨⟨6⟩, 0⟩ }

def measure : Expr := .typeMember ⟨2⟩ { scale with id := ⟨⟨5⟩, 1⟩ }

def aligned : Expr := .binary .equal (column "m" 0) (.binary .add measure (column "m" 0) .int) .bool

/-- Fields of pins and scales of maps have sources of their own; `Home` is observed because maps notify. -/
def config : Configuration where
  memberSources := (Table.empty.insert ⟨⟨6⟩, 0⟩ (.direct "pin")).insert ⟨⟨5⟩, 1⟩ (.direct "scale")

def pin (v : Int64) : Value := .record ⟨6⟩ [("X", .integer v)]

def world (home boxed : Int64) : World :=
  ({ next := 10 : World }.setSlot "m" "Home" (pin home)).setBox ⟨10⟩ (pin boxed)

/-- The getter is built when the home is at 1, the setter after it has moved to 7. -/
def turns : List Turn := [⟨world 1 0, .getter (column "m" 0)⟩, ⟨world 7 1, .setter none (column "m" 0)⟩]

/-- The triggers are on the map, on its type, and on a copy of the pin that the getter and the setter share. -/
theorem aligned_collected : ∃ ts s, aligned.triggers host config ⟨world 7 5, Turn.after host .empty turns⟩ = .ok ts s ∧
    ts.map (·.target) = [.value (pin 5), .value (.object (map "m")), .type ⟨5⟩, .value (pin 5),
      .value (.object (map "m"))] ∧
    (∀ t ∈ ts, t.isSubscribed = false) ∧
    ∀ before turn later a s₁, turns = before ++ turn :: later →
      turn.run host (Turn.after host .empty before) = .ok a s₁ → a.Uses host s.receivers s₁.world turn.request := by
  obtain ⟨ts, s, h, ht⟩ : ∃ ts s, aligned.triggers host config ⟨world 7 5, Turn.after host .empty turns⟩ = .ok ts s ∧
      ts.map (·.target) = [.value (pin 5), .value (.object (map "m")), .type ⟨5⟩, .value (pin 5),
        .value (.object (map "m"))] := ⟨_, _, rfl, rfl⟩
  exact ⟨ts, s, h, ht, (collected_with_compiled h).2⟩

/-- Another map has no home, and so what would be observed on it fails. -/
def astray : Turn := ⟨world 7 1, .triggers config (column "n" 3)⟩

/-- The failure leaves the receiver of the node that it could look at, and none of the other; the pin of the first map
stays in its box. -/
theorem astray_leaves : ∃ e s, astray.run host (Turn.after host .empty turns) = .error e s ∧
    s.receivers.find? ⟨3⟩ = some (.shared (.object (map "n"))) ∧ s.receivers.find? ⟨4⟩ = none ∧
    (Turn.after host .empty (turns ++ [astray, ⟨world 9 9, .target (column "m" 0)⟩])).find? ⟨1⟩ = some (.boxed ⟨10⟩) := by
  obtain ⟨hstay, -, hfail⟩ := receivers_resolved_once host .empty turns astray [⟨world 9 9, .target (column "m" 0)⟩]
  refine ⟨_, _, rfl, rfl, ?_, hstay.kept ⟨1⟩ (.boxed ⟨10⟩) rfl⟩
  exact (hfail _ _ rfl).2.2 ⟨4⟩ _ _ (List.mem_cons_self ..) (by decide) ⟨world 7 1, Turn.after host .empty turns⟩ rfl

end Maps

end DataBinding
