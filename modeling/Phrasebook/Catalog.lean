import Phrasebook.Message.Basic

namespace Phrasebook

/-- Messages by resource and path. Resources are in increasing order, none is without messages, and no
path of one is there twice. -/
structure Catalog where
  resources : List (String × List (List String × Message))
  ascending : Keyed.Ascending resources
  filled : ∀ entry ∈ resources, entry.2 ≠ []
  distinct : ∀ entry ∈ resources, (entry.2.map Prod.fst).Nodup

namespace Catalog

def empty : Catalog := ⟨[], .nil, List.forall_mem_nil _, List.forall_mem_nil _⟩

/-- The messages of a resource, which has none if it is not there. -/
def messages (catalog : Catalog) (resource : String) : List (List String × Message) :=
  (catalog.resources.lookup resource).getD []

theorem nodup_paths (catalog : Catalog) (resource : String) :
    ((catalog.messages resource).map Prod.fst).Nodup := by
  unfold messages
  cases owner : catalog.resources.lookup resource with
  | none => exact List.nodup_nil
  | some stored => exact catalog.distinct _ (Keyed.mem_of_lookup owner)

/-- The message at a path of a resource. -/
def get? (catalog : Catalog) (resource : String) (path : List String) : Option Message :=
  (catalog.resources.lookup resource).bind fun messages => messages.lookup path

def contains (catalog : Catalog) (resource : String) (path : List String) : Bool :=
  (catalog.get? resource path).isSome

/-- Stores a message; one at the same place is replaced. -/
def insert (catalog : Catalog) (resource : String) (path : List String) (message : Message) :
    Catalog where
  resources :=
    Keyed.putSorted resource (Keyed.put path message (catalog.messages resource)) catalog.resources
  ascending := catalog.ascending.putSorted ..
  filled entry member := by
    rcases Keyed.mem_of_mem_putSorted member with rfl | other
    · exact Keyed.put_ne_nil path message _
    · exact catalog.filled entry other
  distinct entry member := by
    rcases Keyed.mem_of_mem_putSorted member with rfl | other
    · exact Keyed.nodup_keys_put (catalog.nodup_paths resource) path message
    · exact catalog.distinct entry other

/-- Stores a message, and gives the one that was at its place. -/
def replace (catalog : Catalog) (resource : String) (path : List String) (message : Message) :
    Option Message × Catalog :=
  (catalog.get? resource path, catalog.insert resource path message)

/-- The number of messages in all resources. -/
def size (catalog : Catalog) : Nat :=
  catalog.resources.foldr (fun entry total => entry.2.length + total) 0

def isEmpty (catalog : Catalog) : Bool := catalog.size == 0

/-- The names of the resources, in increasing order. -/
def resourceNames (catalog : Catalog) : List String := catalog.resources.map Prod.fst

theorem get?_insert_self (catalog : Catalog) (resource : String) (path : List String)
    (message : Message) : (catalog.insert resource path message).get? resource path = some message := by
  simp only [get?, insert, Keyed.lookup_putSorted_self, Option.bind_some]
  exact Keyed.lookup_put_self ..

theorem get?_insert_of_path_ne (catalog : Catalog) (resource : String) {path other : List String}
    (different : other ≠ path) (message : Message) :
    (catalog.insert resource path message).get? resource other = catalog.get? resource other := by
  simp only [get?, insert, messages, Keyed.lookup_putSorted_self, Option.bind_some]
  rw [Keyed.lookup_put_of_ne different]
  cases catalog.resources.lookup resource <;> rfl

theorem get?_insert_of_resource_ne (catalog : Catalog) {resource other : String}
    (different : other ≠ resource) (path path' : List String) (message : Message) :
    (catalog.insert resource path message).get? other path' = catalog.get? other path' := by
  simp only [get?, insert, Keyed.lookup_putSorted_of_ne different]

end Catalog

end Phrasebook
