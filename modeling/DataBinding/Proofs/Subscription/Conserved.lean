import DataBinding.Proofs.Compiled.Getter
import DataBinding.Proofs.Run.HostCode
import DataBinding.Proofs.Subscription.Create

/-!
# Subscriptions are conserved

Whatever host code does, the list of every event holds what the host code itself added and did not remove, in that order,
and what the live bindings have subscribed, one handler for each of their triggers (`subscriptions_conserved`).
-/

namespace DataBinding

open Effect

/-! ## Code without side effects -/

theorem quiet_stores {α : Type} {x : Effect α} (h : Quiet x) : Lasts World.Stores x where
  ok w a w' hx := by
    rw [(h w).world_eq hx]
    exact World.stores_chains.refl w
  error w e w' hx := by
    rcases h w with ⟨a, ha, -⟩ | ⟨e', -, he, -⟩
    · cases hx.symm.trans ha
    · cases hx.symm.trans he
      exact ⟨trivial, World.stores_chains.refl w⟩

namespace Host.Quiet

variable {host : Host} (h : host.Quiet)
include h

/-- Without side effects, evaluating a part and finding its receivers does not do more than store. -/
theorem partLasts {x : Expr} (hx : x.Declared host.types) : x.PartLasts host World.Stores := by
  have hread {m : Member} (hm : m ∈ host.types.declaredMembers m.id.owner) (v : Value) :
      Lasts World.Stores ((m.visibleFrom host.types v).read host v) := by
    obtain ⟨t, ht⟩ := visibleFrom_mem hm v
    exact quiet_stores (h.reads t _ ht v)
  constructor
  · cases x with
    | member node target m => exact hread hx
    | typeMember node m => exact hread hx .null
    | unary op operand t c =>
      cases op with
      | convert =>
        cases c with
        | none => trivial
        | some m => exact fun v => quiet_stores (h.invoke_quiet hx.1 none [v])
      | _ => trivial
    | call target m args =>
      intro r vs
      unfold Method.visibleFrom
      split
      · obtain ⟨a, ha⟩ := override_mem hx.1 _
        exact quiet_stores (h.invoke_quiet ha _ _)
      · exact quiet_stores (h.invoke_quiet hx.1 _ _)
    | typeCall m args => exact fun vs => quiet_stores (h.invoke_quiet hx.1 none vs)
    | _ => trivial
  · intro m hm r
    exact quiet_stores (Expr.readThrough_quiet ((h.still hx).2 m hm))

end Host.Quiet

/-! ## Making bindings -/

section
variable {p : Platform} {scripts : List Act → HostCode}

/-- Its sources have events and never refuse. If both sides of it are bound, evaluating them does not do more than
store. -/
def Blueprint.Reliable (p : Platform) (scripts : List Act → HostCode) : Blueprint → Prop
  | equality config flags left right =>
    config.Reliable p.types ∧ (flags.isTwoWay = true → ∀ fuel, Mild (p.running scripts fuel) left right)
  | action config _ _ => config.Reliable p.types
  | event config _ _ _ _ => config.Reliable p.types
  | command config _ _ _ _ => config.Reliable p.types

theorem create_ledger {fuel : Nat} {b : Blueprint} {id : BindingId} {w w' : World}
    (hl : (p.running scripts fuel).Lasting (World.Ledger p untouched)) (hb : b.Reliable p scripts) (hw : w.Accounted p)
    (h : b.create (p.running scripts fuel) w = .ok id w') :
    id = ⟨w.next⟩ ∧ w.next < w'.next ∧ World.Ledger p (· = id) w w' := by
  cases b with
  | equality config flags left right =>
    exact equalityCreate_ledger hl hb.1 (fun htwo => hb.2 htwo fuel) hw h
  | action config flags call => exact actionCreate_ledger hl hb hw h
  | event config flags target name acts => exact eventCreate_ledger (a := .script acts) hb (fun _ hx => hx) hw h
  | command config flags target name c => exact eventCreate_ledger (a := .command c) hb (fun _ hx => hx) hw h

theorem nameBinding_ledger (f : Action → Effect Unit) (name : String) {id : BindingId} {w : World}
    (hid : id.index < w.next) :
    World.Ledger p (fun x => x = id ∨ w.Reaches x) w (after (Host.nameBinding ⟨p, f⟩ name id w)) := by
  have hname : World.Ledger p (fun x => x = id ∨ w.Reaches x) w
      { w with namedBindings := w.namedBindings.insert name id } := by
    intro hw
    apply hw.change
    · rfl
    · exact offersSame_of_objects rfl
    · exact Nat.le_refl _
    · rfl
    · intro name' x hn
      rw [Table.find?_insert] at hn
      split at hn
      · cases hn
        exact .inr ⟨.inl rfl, hid⟩
      · exact .inl hn
    · exact hw.shared
    · intro g hg
      cases hg with
      | heard hk => exact .inl (.heard hk)
      | named hn => exact .inl (.named hn)
  cases hbefore : w.namedBindings.find? name with
  | none =>
    have hrun : Host.nameBinding ⟨p, f⟩ name id w = .ok () { w with namedBindings := w.namedBindings.insert name id } := by
      unfold Host.nameBinding
      rw [bind_get]
      simp only [hbefore]
      rfl
    rw [hrun]
    exact hname
  | some old =>
    have hrun : Host.nameBinding ⟨p, f⟩ name id w =
        Host.dispose ⟨p, f⟩ old { w with namedBindings := w.namedBindings.insert name id } := by
      unfold Host.nameBinding
      rw [bind_get]
      simp only [hbefore]
      rfl
    rw [hrun]
    refine (ledger_chains p _).trans hname (ledger_mono ?_ ((dispose_ledger p f old).after _))
    rintro _ rfl
    exact .inr (.name hbefore)

theorem bind_ledger (fuel : Nat) (name : String) (b : Blueprint)
    (hl : (p.running scripts fuel).Lasting (World.Ledger p untouched)) (hb : b.Reliable p scripts) :
    Lasts (World.Ledger p untouched) (b.bind (p.running scripts fuel) name) := by
  apply lasts_of_after
  intro w hw
  cases hx : b.create (p.running scripts fuel) w with
  | error e w₁ =>
    have hrun : b.bind (p.running scripts fuel) name w = .error .exhausted w := by
      apply bind_of_error
      unfold settled
      rw [hx]
    rw [hrun]
    exact ⟨hw, (respects_chains _).refl w⟩
  | ok id w₁ =>
    have hrun : b.bind (p.running scripts fuel) name w = (p.running scripts fuel).nameBinding name id w₁ := by
      apply bind_of_ok
      unfold settled
      rw [hx]
    rw [hrun]
    obtain ⟨rfl, hnext, hcreate⟩ := create_ledger hl hb hw hx
    obtain ⟨hw₁, hr₁⟩ := hcreate hw
    have hid : (BindingId.mk w.next).index < w₁.next := hnext
    obtain ⟨hw₂, hr₂⟩ := nameBinding_ledger (Engine.interpret p scripts fuel) name hid hw₁
    refine ⟨hw₂, Nat.le_trans hr₁.next hr₂.next, fun x hx _ => ?_⟩
    -- A binding that was hidden is older than the new one, and it is still hidden when that gets the name.
    have hold : x ≠ ⟨w.next⟩ := by
      rintro rfl
      exact Nat.lt_irrefl _ hx.1
    obtain ⟨hx₁, hfind₁⟩ := hr₁.hidden x hx hold
    obtain ⟨hx₂, hfind₂⟩ := hr₂.hidden x hx₁ fun hm => hm.elim hold hx₁.2
    exact ⟨hx₂, hfind₂.trans hfind₁⟩

/-- Under reliable bindings every list stays an account. -/
def ledger (p : Platform) (scripts : List Act → HostCode) : Regime p scripts where
  rel := World.Ledger p
  chains := ledger_chains p
  mono := ledger_mono
  reached := ledger_reached
  stores := ledger_stores
  value := ledger_value
  dispose := dispose_ledger p
  unname := ledger_unname
  makeHandler := makeNamedHandler_ledger
  listen := listenNamed_ledger
  unlisten := unlistenNamed_ledger
  sure := Blueprint.Reliable p scripts
  tried _ := False
  bind := bind_ledger
  tryBind _ _ _ _ h := h.elim

structure World.Unbound (w : World) : Prop where
  handlers : ∀ k, w.handlersOf k = []
  direct : w.direct = []
  bindings : w.bindings.entries = []
  namedBindings : ∀ name, w.namedBindings.find? name = none
  namedHandlers : ∀ name, w.namedHandlers.find? name = none
  listenings : w.listenings = []

theorem World.Unbound.accounted {w : World} (h : w.Unbound) : w.Accounted p := by
  have hheard (k : EventKey) : w.heard k = [] := by
    unfold World.heard
    rw [h.listenings]
    rfl
  have hsub (k : EventKey) : w.subscribed k = [] := by
    unfold World.subscribed
    rw [h.bindings]
    rfl
  have houtside {g : Handler} (hg : w.Outside g) : False := by
    cases hg with
    | heard hk =>
      rw [hheard] at hk
      cases hk
    | named hn =>
      rw [h.namedHandlers] at hn
      cases hn
  refine ⟨fun k => ?_, fun k => ?_, fun id s he => ?_, fun g hg => (houtside hg).elim, fun k g hg => (houtside hg).elim,
    fun name id hn => ?_, h.direct⟩
  · rw [hheard, hsub, h.handlers]
    exact ⟨[], .nil, .nil⟩
  · rw [hsub]
    exact List.nodup_nil
  · rw [h.bindings] at he
    cases he
  · rw [h.namedBindings] at hn
    cases hn

/-- Wherever host code is looked at outside the making of a binding, each list is the account of what host code added and of
what live bindings subscribed. Each handler of a live binding is in a list; a disposed one has none, and disposing it again
changes nothing. -/
theorem subscriptions_conserved (p : Platform) (scripts : List Act → HostCode)
    (hscripts : ∀ acts, (scripts acts).Makes (Blueprint.Reliable p scripts) (fun _ => False)) (fuel : Nat) (code : HostCode)
    (hcode : code.Makes (Blueprint.Reliable p scripts) (fun _ => False)) {w₀ w : World} (h₀ : w₀.Unbound)
    (hw : w = after (code.run (p.running scripts fuel) w₀)) :
    (∀ k, Shared (w.heard k) (w.subscribed k) (w.handlersOf k)) ∧
      ∀ id s, w.bindings.find? id = some s →
        (s.isDisposed = false → ∀ g ∈ s.handlers, ∃ k, g ∈ s.attachedAt k) ∧
          (s.isDisposed = true → s.handlers = [] ∧ ∀ host : Host, host.dispose id w = .ok () w) := by
  subst hw
  obtain ⟨haccounted, -⟩ := ((ledger p scripts).run hscripts fuel code hcode).after w₀ h₀.accounted
  refine ⟨haccounted.shared, fun id s hs => ⟨fun hd g hg => ?_, fun hd => ?_⟩⟩
  · have hsound := haccounted.sound id s (Table.mem_entries hs)
    rw [hsound.listed hd] at hg
    obtain ⟨t, ht, hg⟩ := List.mem_filterMap.mp hg
    obtain ⟨k, hk⟩ := Option.isSome_iff_exists.mp ((hsound.live hd t ht).placed g hg)
    refine ⟨k, ?_⟩
    unfold Binding.attachedAt
    rw [hd]
    exact mem_heldAt.mpr ⟨t, ht, hk, hg⟩
  · exact ⟨(haccounted.sound id s (Table.mem_entries hs)).idle hd, fun host => dispose_disposed hs hd⟩

end

/-! ## Scales -/

namespace Scales

def weight : MemberSpec := ⟨"X", .property, .int, false, some (.slot "X"), some (.slot "X" none true)⟩

def platform : Platform := ⟨⟨[{ name := "Model", notifies := true, members := [weight] }]⟩, fun _ => "Model", none⟩

def scale (name : String) : ObjectRef := ⟨name, ⟨5⟩, .model⟩

def member : Member := { weight with id := ⟨⟨5⟩, 0⟩ }

def access (i : Nat) (o : String) : Expr := .member ⟨i⟩ (.constant (.object (scale o)) ⟨5⟩ none) member

def config : Configuration where
  eventSources := ⟨Table.empty.insert "Changed" [(⟨5⟩, .property "X")]⟩

def idle : World where
  objects := (["a", "b"].foldl fun t o =>
    t.insert o { slots := Table.empty.insert "X" (.integer 0), offersChanges := true }) Table.empty

/-- Two scales are kept in balance. When `a` changes for the first time, they no longer are. Someone listens to `a`
before and after that was set up. -/
def setUp (next : HostCode) : HostCode :=
  .makeHandler "ear" [.log "heard"] <| .listen (.changed "a") "ear" <|
    .bind "k" (.equality config .twoWay (access 0 "a") (access 1 "b")) <| .listen (.changed "a") "ear" <|
      .bind "once" (.event config .oneTime (.object (scale "a")) "Changed" [.dispose "k"]) next

def weighed (next : HostCode) : World := after ((setUp next).run (platform.running HostCode.ofActs 6) idle)

def weigh : HostCode := .act (.write (scale "b") "X" (.integer 1)) fun _ => .halt

theorem config_reliable : config.Reliable platform.types := reliable_of_registered (by decide) (by decide)

theorem access_mild (fuel : Nat) (i j : Nat) (o o' : String) :
    Mild (platform.running HostCode.ofActs fuel) (access i o) (access j o') := by
  have hq : (platform.running HostCode.ofActs fuel).Quiet :=
    Host.quiet_of_plain (show platform.types.declared.all TypeInfo.isPlain = true by decide)
  have hmember : member ∈ platform.types.declaredMembers ⟨5⟩ :=
    List.mem_of_getElem? (show (platform.types.declaredMembers ⟨5⟩)[0]? = some member from rfl)
  intro x hx
  apply hq.partLasts
  have hparts : (access i o).parts ++ (access j o').parts =
      [access i o, .constant (.object (scale o)) ⟨5⟩ none, access j o', .constant (.object (scale o')) ⟨5⟩ none] := rfl
  rw [hparts] at hx
  simp only [List.mem_cons, List.not_mem_nil, or_false] at hx
  rcases hx with rfl | rfl | rfl | rfl
  · exact hmember
  · trivial
  · exact hmember
  · trivial

theorem setUp_makes {next : HostCode} (h : next.Makes (Blueprint.Reliable platform HostCode.ofActs) (fun _ => False)) :
    (setUp next).Makes (Blueprint.Reliable platform HostCode.ofActs) (fun _ => False) :=
  ⟨⟨config_reliable, fun _ fuel => access_mild fuel 0 1 "a" "b"⟩, config_reliable, h⟩

theorem idle_unbound : idle.Unbound := ⟨fun _ => rfl, rfl, rfl, fun _ => rfl, fun _ => rfl, rfl⟩

/-- A change of `b` sets `a`, and while `a` tells of it both bindings are disposed. -/
theorem weighed_account :
    ((weighed .done).handlersOf (.changed "a")).map Handler.id = [0, 3, 0, 5] ∧
      ((weighed .done).heard (.changed "a")).map Handler.id = [0, 0] ∧
      ((weighed .done).subscribed (.changed "a")).map Handler.id = [3, 5] ∧
      ((weighed weigh).handlersOf (.changed "a")).map Handler.id = [0, 0] ∧
      ∀ k, Shared ((weighed weigh).heard k) ((weighed weigh).subscribed k) ((weighed weigh).handlersOf k) := by
  refine ⟨by decide +kernel, by decide +kernel, by decide +kernel, by decide +kernel, ?_⟩
  refine (subscriptions_conserved platform HostCode.ofActs (fun acts => HostCode.ofActs_makes acts) 6 (setUp weigh)
    (setUp_makes fun _ => trivial) idle_unbound rfl).1

end Scales

end DataBinding
