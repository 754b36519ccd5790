import DataBinding.Proofs.Run.HostCode
import DataBinding.Proofs.Run.Lasting

/-!
# Regimes

A regime is a relation between worlds with one obligation for each kind of step that changes handlers or bindings. It
knows which bindings a step may touch: a reaction touches the binding that it belongs to, all else only bindings
that are reached from the world. Whatever host code does then stays in the relation (`Regime.perform`,
`Regime.run`).
-/

namespace DataBinding

open Effect

/-- What the action does to a binding of its own. -/
def Action.Touches : Action → BindingId → Prop
  | script _, _ => False
  | follow b _ _, id => id = b
  | rerun b _, id => id = b
  | once b inner, id => id = b ∨ inner.Touches id
  | command _, _ => False

def Handler.Touches (h : Handler) : BindingId → Prop :=
  match h.response with
  | .always a => a.Touches
  | .onProperty _ a => a.Touches
  | .report _ _ => fun _ => False

/-- A handler, a direct action or a name leads to the binding. -/
inductive World.Reaches (w : World) (id : BindingId) : Prop where
  | handler {k : EventKey} {h : Handler} (hk : h ∈ w.handlersOf k) (ht : h.Touches id)
  | direct {d : String × Handler} (hd : d ∈ w.direct) (ht : d.2.Touches id)
  | name {n : String} (hn : w.namedBindings.find? n = some id)

def untouched : BindingId → Prop := fun _ => False

structure Regime (p : Platform) (scripts : List Act → HostCode) where
  /-- What may become of a world when only these bindings are touched. -/
  rel : (BindingId → Prop) → World → World → Prop
  chains : ∀ M, Chains (rel M)
  mono : ∀ {M M' : BindingId → Prop} {w w'}, (∀ id, M id → M' id) → rel M w w' → rel M' w w'
  /-- What is reached from the world may be touched. -/
  reached : ∀ {M : BindingId → Prop} {w w'}, (∀ id, M id → w.Reaches id) → rel M w w' → rel untouched w w'
  stores : ∀ {w w' : World}, w.Stores w' → rel untouched w w'
  value : ∀ (w : World) id v, rel (· = id) w (w.updateEquality id fun b => { b with value := v })
  dispose : ∀ f id, Lasts (rel (· = id)) (Host.dispose ⟨p, f⟩ id)
  unname : ∀ (w : World) name, rel untouched w { w with namedBindings := w.namedBindings.erase name }
  makeHandler : ∀ name acts, Lasts (rel untouched) (makeNamedHandler name acts)
  listen : ∀ k name, Lasts (rel untouched) (listenNamed k name)
  unlisten : ∀ k name, Lasts (rel untouched) (unlistenNamed k name)
  /-- The bindings that are made, and those that are tried. -/
  sure : Blueprint → Prop
  tried : Blueprint → Prop
  bind : ∀ fuel name b, Host.Lasting (p.running scripts fuel) (rel untouched) → sure b →
    Lasts (rel untouched) (b.bind (p.running scripts fuel) name)
  tryBind : ∀ fuel name b, Host.Lasting (p.running scripts fuel) (rel untouched) → tried b →
    Lasts (rel untouched) (b.tryBind (p.running scripts fuel) name)

namespace Regime

variable {p : Platform} {scripts : List Act → HostCode} (G : Regime p scripts) {α β : Type} {M : BindingId → Prop}

theorem widen {x : Effect α} (h : Lasts (G.rel untouched) x) : Lasts (G.rel M) x :=
  h.mono fun hr => G.mono nofun hr

/-- A step that looks at the world may touch what is reached from there. -/
theorem look {f : World → Effect α}
    (h : ∀ w, ∃ M : BindingId → Prop, (∀ id, M id → w.Reaches id) ∧ Lasts (G.rel M) (f w)) :
    Lasts (G.rel untouched) (get >>= f) where
  ok w a w' hx := by
    obtain ⟨M, hM, hf⟩ := h w
    exact G.reached hM (hf.ok w a w' hx)
  error w e w' hx := by
    obtain ⟨M, hM, hf⟩ := h w
    exact ⟨trivial, G.reached hM (hf.error w e w' hx).2⟩

theorem nested {limit : Option Nat} {x : Effect Unit} (h : Lasts (G.rel untouched) x) :
    Lasts (G.rel untouched) (Effect.nested limit x) :=
  lasts_nested (G.chains untouched) (fun _ _ => G.stores {}) h

/-! ## Names -/

theorem disposeNamed (f : Action → Effect Unit) (name : String) : Lasts (G.rel untouched) (Host.disposeNamed ⟨p, f⟩ name) := by
  apply G.look
  intro w
  cases hn : w.namedBindings.find? name with
  | none => exact ⟨untouched, nofun, always_pure (G.chains _) _⟩
  | some id =>
    refine ⟨(· = id), ?_, G.dispose f id⟩
    rintro _ rfl
    exact .name hn

theorem dropNamed (f : Action → Effect Unit) (name : String) : Lasts (G.rel untouched) (Host.dropNamed ⟨p, f⟩ name) := by
  apply G.look
  intro w
  cases hn : w.namedBindings.find? name with
  | none => exact ⟨untouched, nofun, always_pure (G.chains _) _⟩
  | some id =>
    refine ⟨(· = id), ?_, ?_⟩
    · rintro _ rfl
      exact .name hn
    · exact always_bind (G.chains _) (G.widen (always_modify fun w => G.unname w name)) fun _ => G.dispose f id

section
variable {f : Action → Effect Unit} (hf : ∀ a : Action, Lasts (G.rel a.Touches) (f a))
include hf

/-! ## What runs through the host -/

theorem respond (args : EventArgs) (h : Handler) : Lasts (G.rel h.Touches) (h.respond ⟨p, f⟩ args) := by
  obtain ⟨n, payload, response⟩ := h
  cases response with
  | always a => exact hf a
  | onProperty name a =>
    unfold Handler.respond
    simp only
    split
    · exact hf a
    · exact always_pure (G.chains _) _
  | report name acts =>
    apply G.widen
    refine always_bind (G.chains _) (always_modify fun w => G.stores {}) fun _ => ?_
    unfold Host.run
    split
    · exact always_pure (G.chains _) _
    · exact hf (.script acts)

theorem respondAll (args : EventArgs) (hs : List Handler) :
    Lasts (G.rel fun id => ∃ h ∈ hs, h.Touches id) (DataBinding.respondAll ⟨p, f⟩ args hs) := by
  apply lasts_forM (G.chains _)
  intro h hh
  exact (G.respond hf args h).mono fun hr => G.mono (fun id ht => ⟨h, hh, ht⟩) hr

theorem lasting : Host.Lasting ⟨p, f⟩ (G.rel M) where
  chains := G.chains _
  stores h := G.mono nofun (G.stores h)
  script acts := G.widen (hf (.script acts))
  raise k args := by
    apply G.widen
    apply G.nested
    apply G.look
    intro w
    refine ⟨_, ?_, G.respondAll hf args (w.handlersOf k)⟩
    rintro id ⟨h, hh, ht⟩
    exact .handler hh ht
  fire tag := by
    apply G.widen
    apply G.nested
    apply G.look
    intro w
    refine ⟨_, ?_, G.respondAll hf .none _⟩
    rintro id ⟨h, hh, ht⟩
    obtain ⟨d, hd, rfl⟩ := List.mem_map.mp hh
    exact .direct (List.mem_filter.mp hd).1 ht

/-! ## Reactions -/

theorem follow (id : BindingId) (source : Getter) (target : Setter) :
    Lasts (G.rel (· = id)) (EqualityBinding.follow ⟨p, f⟩ id source target) := by
  have hl := G.lasting hf (M := (· = id))
  apply hl.world
  intro w
  cases w.equality? id with
  | none => exact hl.pure _
  | some b =>
    simp only
    split
    · exact hl.pure _
    · refine hl.seq (hl.getter source) fun v => hl.world fun w' => ?_
      cases w'.equality? id with
      | none => exact hl.pure _
      | some b' =>
        simp only
        split
        · exact hl.pure _
        · refine hl.seq (always_modify fun w => G.value w id v) fun _ => ?_
          exact hl.assign (G.dispose f id) target v

theorem rerun (id : BindingId) (call : Getter) : Lasts (G.rel (· = id)) (ActionBinding.rerun ⟨p, f⟩ id call) := by
  have hl := G.lasting hf (M := (· = id))
  apply hl.world
  intro w
  cases w.action? id with
  | none => exact hl.pure _
  | some b =>
    simp only
    split
    · exact hl.pure _
    · refine hl.seq (hl.dispatch _ _) fun _ => ?_
      split
      · exact G.dispose f id
      · exact hl.pure _

/-! ## Steps of scripts -/

theorem act (a : Act) : Lasts (G.rel untouched) (a.run ⟨p, f⟩) := by
  have hl := G.lasting hf (M := untouched)
  have hread (o : ObjectRef) (name : String) : Lasts (G.rel untouched) (Host.readNamed ⟨p, f⟩ o name) :=
    hl.seq (hl.except _) fun m => hl.read m _
  have hwrite (o : ObjectRef) (name : String) (v : Value) :
      Lasts (G.rel untouched) (Host.writeNamed ⟨p, f⟩ o name v) :=
    hl.seq (hl.except _) fun m => hl.seq (hl.write m _ _) fun _ => hl.pure _
  cases a with
  | log text => exact hl.tell _
  | fail message => exact hl.fail _
  | write o name v => exact hwrite o name v
  | poke o slot v => exact hl.change fun w => w.stores_setSlot _ _ _
  | increment o name => exact hl.seq (hread o name) fun v => hwrite o name _
  | copy source sourceName target targetName =>
    exact hl.seq (hread source sourceName) fun v => hwrite target targetName v
  | notify o property => exact hl.notify o property
  | raise o e => exact hl.raiseNamed o e
  | dispose name => exact G.disposeNamed f name
  | drop name => exact G.dropNamed f name
  | addHandler event handler => exact G.listen (.free event) handler
  | removeHandler event handler => exact hl.seq (G.unlisten (.free event) handler) fun _ => hl.tell _
  | raiseFree event i => exact hl.raise _ _
  | flush => exact hl.flush _
  | fire tag => exact hl.fire tag

theorem step (a : Action) (ha : ∀ acts, a ≠ .script acts) : Lasts (G.rel a.Touches) (a.step ⟨p, f⟩) := by
  have hl := G.lasting hf (M := untouched)
  cases a with
  | script acts => exact absurd rfl (ha acts)
  | follow id source target => exact G.follow hf id source target
  | rerun id call => exact G.rerun hf id call
  | once id inner =>
    refine always_bind (G.chains _) ((hf inner).mono (G.mono fun _ => .inr)) fun _ => ?_
    exact (G.dispose f id).mono (G.mono fun _ => .inl)
  | command c => exact G.widen (hl.seq (hl.command c _) fun _ => hl.pure _)

end

theorem code {fuel : Nat} (hf : ∀ a : Action, Lasts (G.rel a.Touches) (Engine.interpret p scripts fuel a)) (c : HostCode)
    (hm : c.Makes G.sure G.tried) : Lasts (G.rel untouched) (c.run (p.running scripts fuel)) := by
  have hl : (p.running scripts fuel).Lasting (G.rel untouched) := G.lasting hf
  -- Along the tree: what one node runs is either covered by the host or by one obligation of the regime.
  induction c with
  | done => exact hl.pure _
  | fail e => exact hl.fail e
  | halt => exact always_throw hl.chains trivial
  | look next ih => exact hl.world fun w => ih w (hm w)
  | act a next ih => exact hl.seq (lasts_attempt (G.act hf a)) fun r => ih r (hm r)
  | bind name b next ih => exact hl.seq (G.bind fuel name b hl hm.1) fun _ => ih hm.2
  | tryBind name b next ih => exact hl.seq (G.tryBind fuel name b hl hm.1) fun r => ih r (hm.2 r)
  | makeHandler name acts next ih => exact hl.seq (G.makeHandler name acts) fun _ => ih hm
  | listen k handler next ih => exact hl.seq (G.listen k handler) fun _ => ih hm
  | unlisten k handler next ih => exact hl.seq (G.unlisten k handler) fun r => ih r (hm r)

variable (hs : ∀ acts, (scripts acts).Makes G.sure G.tried)
include hs

/-- Whatever an action sets off stays in the relation. -/
theorem perform (fuel : Nat) (a : Action) : Lasts (G.rel a.Touches) (Engine.interpret p scripts fuel a) := by
  -- Scripts are host code one level down, and so is whatever a reaction sets off.
  induction fuel generalizing a with
  | zero => exact always_throw (G.chains _) trivial
  | succ fuel ih =>
    cases a with
    | script acts => exact G.widen (G.code ih (scripts acts) (hs acts))
    | _ => exact G.step ih _ nofun

theorem run (fuel : Nat) (c : HostCode) (hm : c.Makes G.sure G.tried) :
    Lasts (G.rel untouched) (c.run (p.running scripts fuel)) :=
  G.code (G.perform hs fuel) c hm

end Regime

end DataBinding
