import DataBinding.Engine
import DataBinding.Proofs.Expr.Quiet
import DataBinding.Proofs.Host.Quiet

/-!
# Tame code

Code is tame if it changes watched slots only through setters that tell about the change. The condition is on the
text of the code: scripts, bodies, compiled forms, and everything that a world keeps to be run later.
-/

namespace DataBinding

/-- Slots of objects that are watched, each with a property whose changes tell about it. -/
structure Watch where
  platform : Platform
  reads : String → String → String → Prop

def Watch.Unread (W : Watch) (o slot : String) : Prop := ∀ n, ¬ W.reads o slot n

section
variable (W : Watch)

/-- Written on this object, the member tells about the watched slot that it changes. -/
def Member.Tells (o : String) (m : Member) : Prop :=
  match m.writer with
  | some (.slot s _ loud) => ∀ n, W.reads o s n → loud = true ∧ W.reads o s m.name
  | _ => True

def Act.Tame : Act → Prop
  | write o name _ | increment o name | copy _ _ o name =>
    ∀ m, W.platform.types.member? o.type name = some m → m.Tells W o.name
  | poke o slot _ => W.Unread o.name slot
  | _ => True

structure Body.Tame (b : Body) : Prop where
  acts : ∀ a ∈ b.acts, a.Tame W
  sets : ∀ s ∈ b.sets, ∀ o, W.Unread o s.1

/-- Reading the member runs tame code. -/
def Member.Tame (m : Member) : Prop := ∀ b, m.reader = some (.computed b) → b.Tame W

def Method.Tame (m : Method) : Prop := m.body.Tame W

structure TypeTable.Tame (types : TypeTable) : Prop where
  members : ∀ t, ∀ m ∈ types.declaredMembers t, m.Tame W
  methods : ∀ t, ∀ m ∈ types.declaredMethods t, m.Tame W

theorem Body.Tame.of_plain {W : Watch} {b : Body} (h : b.isPlain = true) : b.Tame W := by
  simp only [Body.isPlain, Bool.and_eq_true, List.isEmpty_iff] at h
  obtain ⟨⟨-, ha⟩, hs⟩ := h
  constructor
  · rw [ha]
    exact fun a hm => absurd hm List.not_mem_nil
  · rw [hs]
    exact fun s hm => absurd hm List.not_mem_nil

theorem Member.Tame.of_plain {W : Watch} {m : Member} (h : m.isPlain = true) : m.Tame W := by
  intro b hb
  unfold MemberSpec.isPlain at h
  rw [hb] at h
  exact Body.Tame.of_plain h

theorem TypeTable.Tame.of_plain {W : Watch} {types : TypeTable} (h : types.declared.all TypeInfo.isPlain = true) :
    types.Tame W where
  members _ _ hm := Member.Tame.of_plain (member_isPlain h hm)
  methods _ m hm := by
    have hp := method_isPlain h hm
    simp only [MethodSpec.isPlain, Bool.and_eq_true] at hp
    exact Body.Tame.of_plain hp.1

def Expr.TameNode : Expr → Prop
  | member _ _ m | typeMember _ m => m.Tame W
  | unary .convert _ _ (some m) | call _ m _ | typeCall m _ => m.Tame W
  | _ => True

def Expr.Tame (e : Expr) : Prop := ∀ x ∈ e.parts, x.TameNode W

def Dispatch.Tame : Dispatch → Prop
  | fixed d => d.method.Tame W
  | byReceiver m => m.Tame W

mutual
def Getter.Tame (g : Getter) : Prop :=
  match g with
  | constant _ => True
  | read _ a => a.member.Tame W
  | coalesce l r | andAlso l r | orElse l r | equal l r | concat l r => l.Tame ∧ r.Tame
  | not g | cast g _ | change g _ => g.Tame
  | convert g d => g.Tame ∧ d.method.Tame W
  | call d args => d.Tame W ∧ TameAll args
  | evaluate e => e.Tame W
termination_by structural g
def Getter.TameAll (gs : List Getter) : Prop :=
  match gs with
  | [] => True
  | g :: gs => g.Tame ∧ TameAll gs
termination_by structural gs
end

def CustomSetter.Tame (target : Target) : CustomSetter → Prop
  | report _ => True
  | slot name _ => ∀ o, target = .value (.object o) → W.Unread o.name name

def Setter.Tame : Setter → Prop
  | write (.shared v) a => ∀ o, v = .object o → a.member.Tells W o.name
  | write (.boxed _) a => ∀ o, a.member.Tells W o
  | write (.type _) _ => True
  | custom c target => c.Tame W target
  | change _ inner => inner.Tame

end

/-- Where one binding is followed: its own reactions are known. -/
structure Scope extends Watch where
  binding : BindingId
  own : Getter → Setter → Prop

section
variable (S : Scope)

/-- Tame, and no other way of writing through the followed binding than its own. -/
def Action.Tame : Action → Prop
  | script acts => ∀ a ∈ acts, a.Tame S.toWatch
  | follow b g s => (b ≠ S.binding ∧ g.Tame S.toWatch ∧ s.Tame S.toWatch) ∨ (b = S.binding ∧ S.own g s)
  | rerun _ g => g.Tame S.toWatch
  | once _ inner => inner.Tame
  | command c => ∀ a ∈ c.acts, a.Tame S.toWatch

def Handler.Tame (h : Handler) : Prop :=
  match h.response with
  | .always a | .onProperty _ a => a.Tame S
  | .report _ acts => ∀ a ∈ acts, a.Tame S.toWatch

def Job.Tame : Job → Prop
  | assign a => a.binding ≠ S.binding ∧ a.target.Tame S.toWatch
  | call g => g.Tame S.toWatch

/-- Everything that the world keeps to be run later is tame. -/
structure World.Tame (w : World) : Prop where
  handlers : ∀ k, ∀ h ∈ w.handlersOf k, h.Tame S
  direct : ∀ d ∈ w.direct, d.2.Tame S
  named : ∀ n h, w.namedHandlers.find? n = some h → h.Tame S
  jobs : ∀ j ∈ w.jobs, j.Tame S

end

/-- A one-way binding that is followed: what it observes, what it carries where, and its own handlers, which have
numbers from `first` on. Its source gives a value that hangs on the watched slots only. -/
structure Tracking extends Scope where
  source : Getter
  target : Setter
  first : Nat
  /-- Whether it observes its side yet. -/
  armed : Prop
  own_iff : ∀ g s, own g s ↔ armed ∧ g = source ∧ s = target
  value : World → Value → Prop
  value_congr : ∀ w w' v, (∀ o s n, reads o s n → w'.slot o s = w.slot o s) → value w v → value w' v
  source_value : ∀ host w v w', host.toPlatform = platform → source.run host w = .ok v w' → w' = w ∧ value w v
  target_tame : target.Tame toWatch
  types_tame : platform.types.Tame toWatch

end DataBinding
