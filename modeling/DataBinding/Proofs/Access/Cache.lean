import DataBinding.Access.Accessor
import DataBinding.Proofs.Schema.Lineage

/-!
# Accessors out of the cache

A declared member is known by where it is declared (`TypeTable.declaredMember_ext`). So a cache whose entries were
put in for declared members gives the accessor that would be made anew, whatever was looked up before
(`AccessorCache.find_after`).
-/

namespace DataBinding

namespace TypeTable

theorem declaredMember_getElem? {types : TypeTable} {t : TypeId} {m : Member} (h : m ∈ types.declaredMembers t) :
    (types.info t).members[m.id.position]? = some m.toMemberSpec ∧ m.id.owner = t := by
  obtain ⟨⟨spec, i⟩, hi, rfl⟩ := List.mem_map.mp h
  exact ⟨List.mem_zipIdx_iff_getElem?.mp hi, rfl⟩

theorem declaredMember_ext {types : TypeTable} {t u : TypeId} {m n : Member} (hm : m ∈ types.declaredMembers t)
    (hn : n ∈ types.declaredMembers u) (h : m.id = n.id) : m = n := by
  obtain ⟨hm, rfl⟩ := declaredMember_getElem? hm
  obtain ⟨hn, rfl⟩ := declaredMember_getElem? hn
  rw [h, hn] at hm
  obtain ⟨spec, id⟩ := m
  cases h
  cases hm
  rfl

theorem declaredMethod_getElem? {types : TypeTable} {t : TypeId} {m : Method} (h : m ∈ types.declaredMethods t) :
    (types.info t).methods[m.id.position]? = some m.toMethodSpec ∧ m.id.owner = t := by
  obtain ⟨⟨spec, i⟩, hi, rfl⟩ := List.mem_map.mp h
  exact ⟨List.mem_zipIdx_iff_getElem?.mp hi, rfl⟩

theorem declaredMethod_ext {types : TypeTable} {t u : TypeId} {m n : Method} (hm : m ∈ types.declaredMethods t)
    (hn : n ∈ types.declaredMethods u) (h : m.id = n.id) : m = n := by
  obtain ⟨hm, rfl⟩ := declaredMethod_getElem? hm
  obtain ⟨hn, rfl⟩ := declaredMethod_getElem? hn
  rw [h, hn] at hm
  obtain ⟨spec, id⟩ := m
  cases h
  cases hm
  rfl

end TypeTable

namespace AccessorCache

variable (types : TypeTable)

/-- What is found for a declared member is the accessor that would be made anew. -/
def Faithful (cache : AccessorCache) : Prop :=
  ∀ m ∈ types.declaredMembers m.id.owner, ∀ t a, cache.entries.find? (m.id, t) = some a → a = Accessor.on types m t

/-- The cache after lookups of members on types of receivers, the first of them on an empty cache. -/
def after (finds : List (Member × TypeId)) : AccessorCache :=
  finds.foldl (fun cache f => (cache.find types f.1 f.2).2) {}

variable {types}

theorem find_faithful {cache : AccessorCache} (h : cache.Faithful types) {m : Member}
    (hm : m ∈ types.declaredMembers m.id.owner) (t : TypeId) :
    (cache.find types m t).1 = Accessor.on types m t ∧ (cache.find types m t).2.Faithful types := by
  unfold find
  cases hf : cache.entries.find? (m.id, t) with
  | some a => exact ⟨h m hm t a hf, h⟩
  | none =>
    refine ⟨rfl, fun n hn u a ha => ?_⟩
    rw [Table.find?_insert] at ha
    split at ha
    · rename_i hk
      obtain ⟨hid, rfl⟩ := Prod.mk.injEq .. ▸ hk
      cases TypeTable.declaredMember_ext hm hn hid
      exact (Option.some.inj ha).symm
    · exact h n hn u a ha

theorem after_faithful {finds : List (Member × TypeId)}
    (h : ∀ f ∈ finds, f.1 ∈ types.declaredMembers f.1.id.owner) : (after types finds).Faithful types := by
  refine List.foldlRecOn finds (motive := Faithful types) _ (fun m _ t a ha => by cases ha) ?_
  intro cache hc f hf
  exact (find_faithful hc (h f hf) f.2).2

/-- After any lookups of declared members the cache gives what would be made anew. -/
theorem find_after {finds : List (Member × TypeId)} (h : ∀ f ∈ finds, f.1 ∈ types.declaredMembers f.1.id.owner)
    {m : Member} (hm : m ∈ types.declaredMembers m.id.owner) (t : TypeId) :
    ((after types finds).find types m t).1 = Accessor.on types m t :=
  (find_faithful (after_faithful h) hm t).1

end AccessorCache

end DataBinding
