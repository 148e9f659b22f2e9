import InfraGraph.Entity.Model
import InfraGraph.Listing.Order

/-!
What each kind of entity can be sorted by, and its order if a request names none. Times sort by their
text to the microsecond.
-/

namespace InfraGraph

def createdKey {α : Type} (metadata : α → Metadata) : SortKey α :=
  ⟨.createdAt, fun a => (metadata a).createdAt.sortText⟩

def updatedKey {α : Type} (metadata : α → Metadata) : SortKey α :=
  ⟨.updatedAt, fun a => (metadata a).updatedAt.sortText⟩

instance : Listed User where
  id := (·.id)
  keys := [⟨.username, (·.username)⟩, updatedKey (·.metadata)]
  standard := ⟨⟨.username, (·.username)⟩, .ascending⟩

instance : Listed ServiceAccount where
  id := (·.id)
  keys := [createdKey (·.metadata), updatedKey (·.metadata)]
  standard := ⟨updatedKey (·.metadata), .descending⟩

instance : Listed Group where
  id := (·.id)
  keys := [⟨.fullPath, (·.fullPath)⟩]
  standard := ⟨⟨.fullPath, (·.fullPath)⟩, .ascending⟩

instance : Listed Workspace where
  id := (·.id)
  keys := [⟨.fullPath, (·.fullPath)⟩, updatedKey (·.metadata)]
  standard := ⟨⟨.fullPath, (·.fullPath)⟩, .ascending⟩

instance : Listed Team where
  id := (·.id)
  keys := [⟨.name, (·.name)⟩, updatedKey (·.metadata)]
  standard := ⟨⟨.name, (·.name)⟩, .ascending⟩

instance : Listed Role where
  id := (·.id)
  keys := [⟨.name, (·.name)⟩, updatedKey (·.metadata)]
  standard := ⟨⟨.name, (·.name)⟩, .ascending⟩

instance : Listed Run where
  id := (·.id)
  keys := [createdKey (·.metadata), updatedKey (·.metadata)]
  standard := ⟨createdKey (·.metadata), .descending⟩

instance : Listed TerraformModule where
  id := (·.id)
  keys := [⟨.name, (·.name)⟩, updatedKey (·.metadata)]
  standard := ⟨⟨.name, (·.name)⟩, .ascending⟩

instance : Listed TerraformModuleVersion where
  id := (·.id)
  keys := [createdKey (·.metadata), updatedKey (·.metadata)]
  standard := ⟨createdKey (·.metadata), .descending⟩

instance : Listed TerraformProvider where
  id := (·.id)
  keys := [⟨.name, (·.name)⟩, updatedKey (·.metadata)]
  standard := ⟨⟨.name, (·.name)⟩, .ascending⟩

instance : Listed VcsProvider where
  id := (·.id)
  keys := [createdKey (·.metadata), updatedKey (·.metadata)]
  standard := ⟨updatedKey (·.metadata), .descending⟩

instance : Listed ActivityEvent where
  id := (·.id)
  keys := [createdKey (·.metadata)]
  standard := ⟨createdKey (·.metadata), .descending⟩

end InfraGraph
