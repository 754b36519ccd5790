import DataBinding.Proofs.Compiled.Agree
import DataBinding.Proofs.Host.Quiet

/-!
# Getters and the evaluator

A getter that was built in one state of the host gives in every later state what the evaluator gives there, as
long as each target still evaluates to the receiver that was resolved for it (`compiled_getter_agrees_eval`). Host
code may fail but has no side effects.
-/

namespace DataBinding

open Effect Compile Workbench

/-- A later state of the host may hold other records in the boxes, of the same types. -/
def World.KeepsBoxes (w t : World) : Prop := ∀ b u, (w.box b).type? = some u → (t.box b).type? = some u

namespace Expr

/-- A part is made of declared members and methods. Calls pass as many arguments as the method declares, static
methods are called without a target, and conversions are static methods of one parameter. -/
def Declared (types : TypeTable) : Expr → Prop
  | member _ _ m | typeMember _ m => m ∈ types.declaredMembers m.id.owner
  | unary .convert _ _ (some m) => m ∈ types.declaredMethods m.id.owner ∧ m.isStatic = true ∧ m.arity = 1
  | call _ m args => m ∈ types.declaredMethods m.id.owner ∧ m.isStatic = false ∧ args.length = m.arity
  | typeCall m args => m ∈ types.declaredMethods m.id.owner ∧ args.length = m.arity
  | _ => True

/-- Every part is declared, and a node names one member access. -/
structure WellFormed (types : TypeTable) (e : Expr) : Prop where
  named : ∀ x ∈ e.parts, x.Named e.parts
  declared : ∀ x ∈ e.parts, x.Declared types

/-- The target of a member access evaluates to the value that its receiver holds. -/
def Held (host : Host) (t : World) (rs : Receivers) : Expr → Prop
  | member node target _ => ∀ r, rs.find? node = some r → target.eval host t = .ok (r.value t) t
  | _ => True

/-- What is reached from a receiver of a type that does not derive from the declaring one: no static member in
place of an instance one, and no parameters by reference. A static member does not look at its target. -/
def Reached (host : Host) (t : World) : Expr → Prop
  | member _ target m => ∀ v u, target.eval host t = .ok v t → v.type? = some u →
    (m.isStatic = true → m.read host v = m.read host .null) ∧
      (m.isStatic = false → host.types.isAssignable m.id.owner u = false →
        (m.visibleFrom host.types v).isStatic = false)
  | call target m _ => ∀ v u, target.eval host t = .ok v t → v.type? = some u →
    host.types.isAssignable m.id.owner u = false → (m.visibleFrom host.types v).hasByRefParams = false
  | _ => True

end Expr

section
variable {types : TypeTable} {m : Member}

theorem getD_filter_mem {p : Member → Bool} {t : TypeId} (hm : m ∈ types.declaredMembers m.id.owner) :
    ∃ a, ((types.member? t m.name).filter p).getD m ∈ types.declaredMembers a := by
  cases hf : (types.member? t m.name).filter p with
  | none => exact ⟨_, hm⟩
  | some found =>
    obtain ⟨-, a, -, -, ha, -⟩ := TypeTable.member?_eq_some (Option.filter_eq_some_iff.mp hf).1
    exact ⟨a, (TypeTable.mem_of_declaredMember? ha).1⟩

theorem visibleFrom_mem (hm : m ∈ types.declaredMembers m.id.owner) (v : Value) :
    ∃ a, m.visibleFrom types v ∈ types.declaredMembers a := by
  unfold Member.visibleFrom
  split
  · exact ⟨_, hm⟩
  · split
    · exact getD_filter_mem hm
    · exact ⟨_, hm⟩

theorem resolve_mem (hm : m ∈ types.declaredMembers m.id.owner) (t : TypeId) :
    ∃ a, Accessor.resolve types m t ∈ types.declaredMembers a := by
  unfold Accessor.resolve
  split
  · exact ⟨_, hm⟩
  · exact getD_filter_mem hm

theorem override_mem {m : Method} (hm : m ∈ types.declaredMethods m.id.owner) (t : TypeId) :
    ∃ a, types.override t m ∈ types.declaredMethods a := by
  rcases TypeTable.override_eq types t m with he | ⟨-, hf, -⟩
  · exact ⟨_, he ▸ hm⟩
  · obtain ⟨-, a, -, -, ha, -⟩ := TypeTable.method?_eq_some hf
    exact ⟨a, (TypeTable.mem_of_declaredMethod? ha).1⟩

theorem visibleFrom_static (hs : m.isStatic = true) (v : Value) : m.visibleFrom types v = m := by
  unfold Member.visibleFrom
  rw [if_pos hs]

theorem visibleFrom_instance (hs : m.isStatic = false) {v : Value} {u : TypeId} (hv : v.type? = some u) :
    m.visibleFrom types v = ((types.member? u m.name).filter fun found => found.kind = m.kind).getD m := by
  unfold Member.visibleFrom
  rw [if_neg (by simp [hs]), hv]

theorem visibleFrom_isStatic_of_found (hs : m.isStatic = false) {v : Value} {u : TypeId} (hv : v.type? = some u)
    (h : ∀ found, types.member? u m.name = some found → found.kind = m.kind → found.isStatic = false) :
    (m.visibleFrom types v).isStatic = false := by
  rw [visibleFrom_instance hs hv]
  cases hf : (types.member? u m.name).filter fun found => found.kind = m.kind with
  | none => exact hs
  | some found =>
    obtain ⟨hfound, hkind⟩ := Option.filter_eq_some_iff.mp hf
    exact h found hfound (by simpa using hkind)

/-- No static member takes the place of an instance one, if that is so on receivers of unrelated types. -/
theorem visibleFrom_isStatic (ht : types.Regular) (hm : m ∈ types.declaredMembers m.id.owner) {v : Value}
    {u : TypeId} (hv : v.type? = some u) (hs : m.isStatic = false)
    (hf : types.isAssignable m.id.owner u = false → (m.visibleFrom types v).isStatic = false) :
    (m.visibleFrom types v).isStatic = false := by
  by_cases ha : types.isAssignable m.id.owner u = true
  · refine visibleFrom_isStatic_of_found hs hv fun found hfound _ => ?_
    rw [ht.isStatic_member hm (by simpa [TypeTable.isAssignable] using ha) hfound, hs]
  · exact hf (Bool.eq_false_iff.mpr ha)

/-- The accessor of a receiver's type stands for the member that is visible from the receiver. -/
theorem resolve_eq_visibleFrom (hm : types.declaredMember? m.name m.id.owner = some m) {v : Value} {u : TypeId}
    (hv : v.type? = some u) (hs : m.isStatic = false) (hf : (m.visibleFrom types v).isStatic = false) :
    Accessor.resolve types m u = m.visibleFrom types v := by
  have hvis : m.visibleFrom types v = ((types.member? u m.name).filter fun found => found.kind = m.kind).getD m :=
    visibleFrom_instance hs hv
  unfold Accessor.resolve
  by_cases ho : m.id.owner = u
  · subst ho
    rw [if_pos (by simp), hvis]
    rcases TypeTable.member?_owner hm with h | h <;> rw [h]
    · rfl
    · rw [Option.filter_some_pos (by simp), Option.getD_some]
  · rw [if_neg (by simp [ho, hs]), hvis]
    rw [hvis] at hf
    cases hfound : types.member? u m.name with
    | none => rfl
    | some found =>
      rw [hfound] at hf
      by_cases hk : found.kind = m.kind
      · rw [Option.filter_some_pos (by simp [hk]), Option.getD_some] at hf
        rw [Option.filter_some_pos (by simp [hk, hf]), Option.filter_some_pos (by simp [hk])]
      · rw [Option.filter_some_neg (by simp [hk]), Option.filter_some_neg (by simp [hk])]

theorem get_instance {host : Host} {v : Value} {u : TypeId}
    (hr : Accessor.resolve host.types m u = m.visibleFrom host.types v)
    (hf : (m.visibleFrom host.types v).isStatic = false) :
    (Accessor.on host.types m u).get host v = (m.visibleFrom host.types v).read host v := by
  simp only [Accessor.get, Accessor.on, hr, hf, Bool.false_eq_true, if_false]

theorem override_isSupported {m : Method} (ht : types.Regular) (hm : m ∈ types.declaredMethods m.id.owner)
    (hs : m.isStatic = false) (hsup : m.isSupported = true) {u : TypeId}
    (hf : types.isAssignable m.id.owner u = false → (types.override u m).hasByRefParams = false) :
    (types.override u m).isSupported = true := by
  rw [Method.override_isSupported_iff hs hsup]
  have hr : m.hasByRefParams = false := by
    simp only [Method.isSupported, Bool.and_eq_true, Bool.not_eq_true'] at hsup
    exact hsup.2
  by_cases ha : types.isAssignable m.id.owner u = true
  · rcases TypeTable.override_eq types u m with he | ⟨-, hfound, -⟩
    · rw [he, hr]
    · exact ht.byValue_method hm (by simpa [TypeTable.isAssignable] using ha) hfound hr
  · exact hf (Bool.eq_false_iff.mpr ha)

theorem get_eq_read {host : Host} (ht : host.types.Regular) (hm : m ∈ host.types.declaredMembers m.id.owner)
    {v : Value} {u : TypeId} (hv : v.type? = some u) (hs : m.isStatic = true → m.read host v = m.read host .null)
    (hf : m.isStatic = false → host.types.isAssignable m.id.owner u = false →
      (m.visibleFrom host.types v).isStatic = false) :
    (Accessor.on host.types m u).get host v = (m.visibleFrom host.types v).read host v := by
  cases hstatic : m.isStatic with
  | true =>
    have hr : Accessor.resolve host.types m u = m := by simp [Accessor.resolve, hstatic]
    simp only [Accessor.get, Accessor.on, hr, visibleFrom_static hstatic, hstatic, if_true]
    exact (hs hstatic).symm
  | false =>
    have hinst := visibleFrom_isStatic ht hm hv hstatic (hf hstatic)
    exact get_instance (resolve_eq_visibleFrom (ht.declaredMember?_eq hm) hv hstatic hinst) hinst

end

namespace Host.Quiet

variable {host : Host} (h : host.Quiet)
include h

theorem invoke_quiet {t : TypeId} {m : Method} (hm : m ∈ host.types.declaredMethods t) (r : Option Value)
    (args : List Value) : (m.invoke host r args).Quiet :=
  Method.invoke_quiet (h.calls t m hm) r args

theorem quietNode {x : Expr} (hx : x.Declared host.types) (t : World) : x.QuietNode host t := by
  cases x with
  | member node target m =>
    intro v _
    obtain ⟨a, ha⟩ := visibleFrom_mem hx v
    exact h.reads a _ ha v t
  | typeMember node m =>
    obtain ⟨a, ha⟩ := visibleFrom_mem hx .null
    exact h.reads a _ ha .null t
  | unary op operand u c =>
    cases op with
    | convert =>
      cases c with
      | some m => exact fun v => h.invoke_quiet hx.1 none [v] t
      | none => trivial
    | _ => trivial
  | call target m args =>
    intro v vs _
    unfold Method.visibleFrom
    split
    · rename_i u _
      obtain ⟨a, ha⟩ := override_mem hx.1 u
      exact h.invoke_quiet ha (some v) vs t
    · exact h.invoke_quiet hx.1 (some v) vs t
  | typeCall m args => exact fun vs => h.invoke_quiet hx.1 none vs t
  | _ => trivial

theorem still {x : Expr} (hx : x.Declared host.types) : x.Still host := by
  refine ⟨h.quietNode hx, fun m hm t v => ?_⟩
  have hdecl : m ∈ host.types.declaredMembers m.id.owner := by
    cases x with
    | member node target m' =>
      cases hm
      exact hx
    | typeMember node m' =>
      cases hm
      exact hx
    | _ => cases hm
  obtain ⟨a, ha⟩ := resolve_mem hdecl t
  exact h.reads a _ ha _

end Host.Quiet

namespace Expr

variable {host : Host} {t : World} {b : Workbench}

theorem sameNode (hq : host.Quiet) (ht : host.types.Regular) {xs : List Expr} (hf : b.Fits xs)
    (hb : b.world.KeepsBoxes t) {x : Expr} (hx : x ∈ xs) (hd : x.Declared host.types)
    (hh : x.Held host t b.receivers) (hr : x.Reached host t) : x.SameNode host t b := by
  cases x with
  | member node target m =>
    intro r hnode u hu
    have hv := hh r hnode
    have htype : (r.value t).type? = some u := by
      -- Under a target a fitting receiver is never a type, so it has a value of its own.
      have hfit := hf _ hx node r rfl hnode
      cases r with
      | shared v => exact hu
      | boxed b => exact hb b u hu
      | type a =>
        unfold Receiver.Fits at hfit
        split at hfit <;> simp_all
    obtain ⟨hs, hi⟩ := hr _ u hv htype
    exact ⟨hv, htype, get_eq_read ht hd htype hs hi⟩
  | typeMember node m => exact fun r hnode => hf _ hx node r rfl hnode
  | unary op operand u c =>
    cases op with
    | convert =>
      cases c with
      | some m => exact hd.2
      | none => trivial
    | _ => trivial
  | call target m args =>
    refine ⟨hd.2.1, hd.2.2, fun v u hv hu => ⟨?_, fun hn vs out ho => ?_⟩⟩
    · exact fun hsup => override_isSupported ht hd.1 hd.2.1 hsup fun ha => by
        have hvis := hr v u hv hu ha
        rwa [Method.visibleFrom_of_type? hu] at hvis
    · obtain ⟨a, ha⟩ := override_mem hd.1 u
      exact hq.void a _ ha hn v vs t out t ho
  | typeCall m args => exact hd.2
  | _ => trivial

end Expr

/-- Compiled getters agree with the evaluator in every later state: they give the same value, or both fail. -/
theorem compiled_getter_agrees_eval {host : Host} (hq : host.Quiet) (ht : host.types.Regular) {e : Expr}
    (he : e.WellFormed host.types) {s t : World} {b : Workbench} {g : Getter}
    (hg : e.getter? host ⟨s, .empty⟩ = .ok (some g) b) (hb : b.world.KeepsBoxes t)
    (hh : ∀ x ∈ e.parts, x.Held host t b.receivers) (hr : ∀ x ∈ e.parts, x.Reached host t) :
    Agree t t (g.run host) (e.eval host) := by
  have hfresh : Fresh ⟨s, .empty⟩ := fun n b h => by cases h
  have hkeeps : ∀ x ∈ e.parts, x.NodeWithin host (Guarded Fresh Keeps) := fun x hx =>
    Expr.node_keeps e (fun y hy => hq.still (he.declared y hy)) he.named hx
  have hcompiled : Compiled host b e g := Expr.getter?_compiled e hkeeps hfresh hg
  have hfits : b.Fits e.parts := by
    refine Expr.getter?_within (Expr.fits_chains e.parts) e (fun x hx => ?_) _ _ _ hg ?_
    · exact Expr.node_fits e he.named he.named hx
    · intro x _ n r _ hn
      cases hn
  refine hcompiled.agree e (fun x hx => hq.quietNode (he.declared x hx) t) fun x hx => ?_
  exact Expr.sameNode hq ht hfits hb hx (he.declared x hx) (hh x hx) (hr x hx)

/-! ## Shapes -/

namespace Shapes

def point : TypeInfo :=
  { name := "Point", kind := .value, members := [⟨"X", .field, .int, false, some (.recordField "X"), none⟩] }

def shape : TypeInfo :=
  { name := "Shape"
    members := [
      ⟨"Next", .property, ⟨6⟩, false, some (.slot "Next"), none⟩,
      ⟨"Origin", .property, ⟨5⟩, false, some (.slot "Origin"), none⟩]
    methods := [⟨"Area", [⟨"n", .int, false⟩], some .int, true, .object, { result := .constant (.integer 0) }⟩] }

def square : TypeInfo :=
  { name := "Square", base := some ⟨6⟩
    methods := [⟨"Area", [⟨"n", .int, false⟩], some .int, false, .object, { result := .argument 0 }⟩] }

/-- Circles are no shapes, and their area takes its argument by reference. -/
def circle : TypeInfo :=
  { name := "Circle"
    methods := [⟨"Area", [⟨"n", .int, true⟩], some .int, false, .object, { result := .constant (.integer 2) }⟩] }

def host : Host := ⟨⟨⟨[circle, square, shape, point]⟩, fun _ => "Model", none⟩, fun _ => pure ()⟩

theorem host_quiet : host.Quiet := Host.quiet_of_plain (by decide)

theorem types_regular : host.types.Regular := TypeTable.regular_of_lt (by decide)

def first : ObjectRef := ⟨"first", ⟨6⟩, .model⟩

def second : ObjectRef := ⟨"second", ⟨7⟩, .model⟩

def round : ObjectRef := ⟨"round", ⟨8⟩, .model⟩

/-- The second shape comes after the first one, and this is its place. -/
def state (x : Int64) : World :=
  (({} : World).setSlot "first" "Next" (.object second)).setSlot "second" "Origin" (.record ⟨5⟩ [("X", .integer x)])

def boxed (x : Int64) : World := { (state x).setBox ⟨0⟩ (.record ⟨5⟩ [("X", .integer x)]) with next := 1 }

def next : Member := { shape.members[0] with id := ⟨⟨6⟩, 0⟩ }

def origin : Member := { shape.members[1] with id := ⟨⟨6⟩, 1⟩ }

def place : Member := { point.members[0] with id := ⟨⟨5⟩, 0⟩ }

def area : Method := { shape.methods[0] with id := ⟨⟨6⟩, 0⟩ }

def after : Expr := .member ⟨0⟩ (.constant (.object first) ⟨6⟩ none) next

def balance : Expr :=
  .binary .equal (.member ⟨2⟩ (.member ⟨1⟩ after origin) place) (.call after area [.constant (.integer 7) .int none])
    .bool

def receivers : Receivers :=
  ((Table.empty.insert ⟨0⟩ (.shared (.object first))).insert ⟨1⟩ (.shared (.object second))).insert ⟨2⟩ (.boxed ⟨0⟩)

def getter : Getter :=
  .equal (.read (.boxed ⟨0⟩) ⟨place, true⟩)
    (.call (.byReceiver area) [.read (.shared (.object first)) ⟨next, false⟩, .constant (.integer 7)])

def access : NodeId → Expr
  | ⟨0⟩ => after
  | ⟨1⟩ => .member ⟨1⟩ after origin
  | _ => .member ⟨2⟩ (.member ⟨1⟩ after origin) place

theorem balance_parts : balance.parts =
    [balance, access ⟨2⟩, access ⟨1⟩, after, .constant (.object first) ⟨6⟩ none,
      .call after area [.constant (.integer 7) .int none], after, .constant (.object first) ⟨6⟩ none,
      .constant (.integer 7) .int none] := rfl

theorem balance_wellFormed : balance.WellFormed host.types := by
  constructor
  · have named : ∀ x ∈ balance.parts, ∀ n, x.node? = some n → x = access n := by
      rw [balance_parts]
      simp only [List.forall_mem_cons]
      refine ⟨?_, ?_, ?_, ?_, ?_, ?_, ?_, ?_, ?_, fun _ h => by cases h⟩ <;>
        · intro n h
          cases h
          try rfl
    intro x hx y hy n hxn hyn
    rw [named x hx n hxn, named y hy n hyn]
  · rw [balance_parts]
    simp only [List.forall_mem_cons]
    refine ⟨trivial, ?_, ?_, ?_, trivial, ?_, ?_, trivial, trivial, fun _ h => by cases h⟩
    · exact List.mem_of_getElem? (show (host.types.declaredMembers ⟨5⟩)[0]? = some place from rfl)
    · exact List.mem_of_getElem? (show (host.types.declaredMembers ⟨6⟩)[1]? = some origin from rfl)
    · exact List.mem_of_getElem? (show (host.types.declaredMembers ⟨6⟩)[0]? = some next from rfl)
    · exact ⟨List.mem_of_getElem? (show (host.types.declaredMethods ⟨6⟩)[0]? = some area from rfl), rfl, rfl⟩
    · exact List.mem_of_getElem? (show (host.types.declaredMembers ⟨6⟩)[0]? = some next from rfl)

/-- In between the second shape has moved. -/
theorem balance_getter_agrees_eval :
    balance.getter? host ⟨state 3, .empty⟩ = .ok (some getter) ⟨boxed 3, receivers⟩ ∧
      Agree (boxed 7) (boxed 7) (getter.run host) (balance.eval host) ∧
      balance.eval host (boxed 7) = .ok (.boolean true) (boxed 7) := by
  have hg : balance.getter? host ⟨state 3, .empty⟩ = .ok (some getter) ⟨boxed 3, receivers⟩ := rfl
  have hb : (boxed 3).KeepsBoxes (boxed 7) := by
    intro b u h
    simp only [boxed, World.box, World.setBox, Table.find?_insert] at h ⊢
    split at h
    · rename_i hb
      rw [if_pos hb]
      exact h
    · rename_i hb
      rw [if_neg hb]
      exact h
  refine ⟨hg, compiled_getter_agrees_eval host_quiet types_regular balance_wellFormed hg hb ?_ ?_, rfl⟩
  · rw [balance_parts]
    simp only [List.forall_mem_cons]
    refine ⟨trivial, ?_, ?_, ?_, trivial, trivial, ?_, trivial, trivial, fun _ h => by cases h⟩ <;>
      · intro r hr
        cases hr
        rfl
  · rw [balance_parts]
    simp only [List.forall_mem_cons]
    refine ⟨trivial, ?_, ?_, ?_, trivial, ?_, ?_, trivial, trivial, fun _ h => by cases h⟩
    · rintro v u ⟨⟩ ⟨⟩
      constructor <;> (intros; contradiction)
    · rintro v u ⟨⟩ ⟨⟩
      constructor <;> (intros; contradiction)
    · rintro v u ⟨⟩ ⟨⟩
      constructor <;> (intros; contradiction)
    · rintro v u ⟨⟩ ⟨⟩
      intros
      contradiction
    · rintro v u ⟨⟩ ⟨⟩
      constructor <;> (intros; contradiction)

def roundArea : Expr := .call (.constant (.object round) ⟨8⟩ none) area [.constant (.integer 3) .int none]

def roundGetter : Getter := .call (.byReceiver area) [.constant (.object round), .constant (.integer 3)]

/-- On a receiver that is no shape the evaluator passes by value what a delegate refuses to pass by reference. -/
theorem roundArea_not_agree :
    host.Quiet ∧ host.types.Regular ∧ roundArea.WellFormed host.types ∧
      roundArea.getter? host ⟨{}, .empty⟩ = .ok (some roundGetter) ⟨{}, .empty⟩ ∧ World.KeepsBoxes {} {} ∧
      (∀ x ∈ roundArea.parts, x.Held host {} .empty) ∧
      ¬ Agree {} {} (roundGetter.run host) (roundArea.eval host) := by
  have hparts : roundArea.parts =
      [roundArea, .constant (.object round) ⟨8⟩ none, .constant (.integer 3) .int none] := rfl
  refine ⟨host_quiet, types_regular, ⟨?_, ?_⟩, rfl, fun b u h => h, ?_, ?_⟩
  · rw [hparts]
    simp only [List.forall_mem_cons]
    refine ⟨nofun, nofun, nofun, nofun⟩
  · rw [hparts]
    simp only [List.forall_mem_cons]
    refine ⟨?_, trivial, trivial, nofun⟩
    exact ⟨List.mem_of_getElem? (show (host.types.declaredMethods ⟨6⟩)[0]? = some area from rfl), rfl, rfl⟩
  · rw [hparts]
    simp only [List.forall_mem_cons]
    exact ⟨trivial, trivial, trivial, nofun⟩
  · rintro (⟨a, hg, -⟩ | ⟨e, e', -, he⟩)
    · cases hg
    · cases he

end Shapes

end DataBinding
