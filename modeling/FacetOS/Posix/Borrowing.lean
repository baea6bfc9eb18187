import FacetOS.Core.Handles

/-!
# Proxies for borrowed handles

The POSIX view makes a proxy for a handle that it does not own from a clone of it.  Both
`proxy_from_borrowed` and the function that it calls release the clone when there is no
proxy.
-/

namespace FacetOS.Posix

open HandleTable

/-- The fields of an interface's metadata that the creation of a proxy reads.  The
initializer is the generated one, which stores the state in the object. -/
structure ProxyMeta where
  interfaceSize : ℕ
  initializeProxy : Bool

/-- What the allocator and the platform have for one call: a clone, the object and the
state of a proxy. -/
structure ProxyResources (Entry : Type) where
  clone : Option Entry
  object : Bool
  state : Bool

/-- The state behind a proxy. -/
structure ProxyState where
  magic : UInt32
  handle : ℕ

def facetProxyMagic : UInt32 := 0x46505258

variable {Entry : Type} (resources : ProxyResources Entry)

def libfacetHandleClone (handles : HandleTable Entry) : Option ℕ × HandleTable Entry :=
  match resources.clone with
  | none => (none, handles)
  | some entry => (some handles.next, handles.create entry)

def libfacetNewProxyClient (metadata : ProxyMeta) (handle : ℕ) : Option ProxyState :=
  if metadata.interfaceSize = 0 ∨ metadata.initializeProxy = false then none
  else if resources.object = false ∨ resources.state = false then none
  else some ⟨facetProxyMagic, handle⟩

variable (metadata : Option ProxyMeta)

def libfacetProxyFromHandle
    (handle : ℕ) (handles : HandleTable Entry) : Option ProxyState × HandleTable Entry :=
  match metadata with
  | none => (none, handles)
  | some metadata =>
    match libfacetNewProxyClient resources metadata handle with
    | none => (none, handles.release handle)
    | some proxy => (some proxy, handles)

/-- `proxy_from_borrowed`; the borrowed handle is only read. -/
def proxyFromBorrowed
    (handle : Option ℕ) (handles : HandleTable Entry) : Option ProxyState × HandleTable Entry :=
  if handle = none then (none, handles)
  else
    match libfacetHandleClone resources handles with
    | (none, handles) => (none, handles)
    | (some copy, handles) =>
      match libfacetProxyFromHandle resources metadata copy handles with
      | (none, handles) => (none, handles.release copy)
      | (some proxy, handles) => (some proxy, handles)

def libfacetFreeProxyClient (proxy : ProxyState) (handles : HandleTable Entry) :
    HandleTable Entry :=
  if proxy.magic ≠ facetProxyMagic then handles else handles.release proxy.handle

/-- The handles when the caller has freed the proxy that it got, if any. -/
def afterProxy (run : Option ProxyState × HandleTable Entry) : HandleTable Entry :=
  match run.1 with
  | none => run.2
  | some proxy => libfacetFreeProxyClient proxy run.2

/-- Every handle that the call has made is released once: when the proxy is freed, or
within the call if there is none.  Those of before are not touched. -/
structure OwnsClone (before : HandleTable Entry) (run : Option ProxyState × HandleTable Entry) :
    Prop where
  once : ∀ id, before.next ≤ id → id < run.2.next → (afterProxy run).releases id = 1
  kept : run.1.isSome → ∀ id, before.next ≤ id → id < run.2.next → run.2.releases id = 0
  borrowed : ∀ id < before.next, (afterProxy run).entry id = before.entry id ∧
    (afterProxy run).releases id = before.releases id

/-- There is no clone to release, no metadata, or a proxy. -/
def CloneSettled (handle : Option ℕ) : Prop :=
  handle = none ∨ resources.clone = none ∨
    ∀ given, metadata = some given → given.interfaceSize ≠ 0 ∧ given.initializeProxy = true ∧
      resources.object = true ∧ resources.state = true

theorem OwnsClone.of_same (before : HandleTable Entry) : OwnsClone before (none, before) :=
  ⟨fun id hle hlt => absurd hlt (not_lt.mpr hle), by simp, fun _ _ => ⟨rfl, rfl⟩⟩

/-- A clone that is released once. -/
theorem OwnsClone.of_released {before : HandleTable Entry} (entry : Entry)
    {run : Option ProxyState × HandleTable Entry} (hnext : run.2.next = before.next + 1)
    (hafter : afterProxy run = (before.create entry).release before.next)
    (hkept : run.1.isSome → run.2 = before.create entry) : OwnsClone before run := by
  have hlive : (before.create entry).Live before.next := by simp [Live]
  refine ⟨fun id hle hlt => ?_, fun hsome id hle hlt => ?_, fun id hid => ?_⟩
  · obtain rfl : id = before.next := by omega
    rw [hafter, releases_release_self hlive]
  · obtain rfl : id = before.next := by omega
    rw [hkept hsome, releases_of_live hlive]
  · rw [hafter, entry_release_of_ne _ hid.ne, entry_create_of_ne _ _ hid.ne,
      releases_release_of_ne _ hid.ne]
    exact ⟨rfl, rfl⟩

/-- The clone is released exactly once unless the proxy cannot be made of metadata that is
there. -/
theorem ownsClone_proxyFromBorrowed_iff (handle : Option ℕ) (before : HandleTable Entry) :
    OwnsClone before (proxyFromBorrowed resources metadata handle before) ↔
      CloneSettled resources metadata handle := by
  unfold proxyFromBorrowed libfacetHandleClone CloneSettled
  by_cases hhandle : handle = none
  · simp [hhandle, OwnsClone.of_same]
  cases hclone : resources.clone with
  | none => simp [OwnsClone.of_same]
  | some entry =>
    cases metadata with
    | none =>
      simp only [hhandle, if_false, libfacetProxyFromHandle]
      refine iff_of_true (OwnsClone.of_released entry ?_ rfl (by simp)) (by simp)
      simp
    | some given =>
      simp only [hhandle, if_false, libfacetProxyFromHandle, false_or, reduceCtorEq,
        Option.some.injEq, forall_eq']
      by_cases hmade : given.interfaceSize ≠ 0 ∧ given.initializeProxy = true ∧
          resources.object = true ∧ resources.state = true
      · have hnew : libfacetNewProxyClient resources given before.next =
            some ⟨facetProxyMagic, before.next⟩ := by
          simp [libfacetNewProxyClient, hmade]
        rw [hnew]
        refine iff_of_true (OwnsClone.of_released entry rfl ?_ fun _ => rfl) hmade
        simp [afterProxy, libfacetFreeProxyClient]
      · have hnew : libfacetNewProxyClient resources given before.next = none := by
          unfold libfacetNewProxyClient
          split_ifs <;> simp_all
        rw [hnew]
        refine iff_of_false (fun howns => ?_) hmade
        -- Both functions have released the clone.
        have hlive : (before.create entry).Live before.next := by simp [Live]
        have honce := howns.once before.next le_rfl (by simp)
        have htwice : (((before.create entry).release before.next).release before.next).releases
            before.next = 2 := by
          rw [releases_release_of_lt (by simp), releases_release_self hlive]
        exact absurd (htwice.symm.trans honce) (by decide)

/-- A table with one handle. -/
def oneHandle : HandleTable Unit := HandleTable.empty.create ()

/-- Without memory for the proxy's state the clone is released twice. -/
theorem borrowed_clone_released_twice :
    (proxyFromBorrowed ⟨some (), true, false⟩ (some ⟨64, true⟩) (some 0) oneHandle).1 = none ∧
      (proxyFromBorrowed ⟨some (), true, false⟩ (some ⟨64, true⟩) (some 0)
        oneHandle).2.releases 1 = 2 := by
  decide

end FacetOS.Posix
