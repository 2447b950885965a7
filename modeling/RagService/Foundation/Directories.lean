/-!
# Directories

The files of a directory and of the directories in it, as they are listed, with the paths at
which they are found.
-/

namespace RagService

inductive Listing (Name Content : Type) where
  | nil
  | file (name : Name) (content : Content) (rest : Listing Name Content)
  | dir (name : Name) (children rest : Listing Name Content)
  deriving DecidableEq

namespace Listing

variable {Name Content : Type}

def names : Listing Name Content -> List Name
  | nil => []
  | file name _ rest => name :: rest.names
  | dir name _ rest => name :: rest.names

/-- The file that a path leads to, and its content. -/
inductive HasFile : Listing Name Content -> List Name -> Content -> Prop where
  | here (name : Name) (content : Content) (rest : Listing Name Content) :
      HasFile (file name content rest) [name] content
  | afterFile (name : Name) (first : Content) {rest : Listing Name Content} {path : List Name}
      {content : Content} (h : HasFile rest path content) :
      HasFile (file name first rest) path content
  | inside (name : Name) {children : Listing Name Content} (rest : Listing Name Content)
      {path : List Name} {content : Content} (h : HasFile children path content) :
      HasFile (dir name children rest) (name :: path) content
  | afterDir (name : Name) (children : Listing Name Content) {rest : Listing Name Content}
      {path : List Name} {content : Content} (h : HasFile rest path content) :
      HasFile (dir name children rest) path content

/-- The names have a property, and those in one directory are different. -/
def WellFormed (P : Name -> Prop) : Listing Name Content -> Prop
  | nil => True
  | file name _ rest => P name ∧ name ∉ rest.names ∧ rest.WellFormed P
  | dir name children rest =>
      P name ∧ name ∉ rest.names ∧ children.WellFormed P ∧ rest.WellFormed P

instance instDecidableWellFormed [DecidableEq Name] (P : Name -> Prop) [DecidablePred P] :
    (listing : Listing Name Content) -> Decidable (listing.WellFormed P)
  | nil => isTrue trivial
  | file _ _ rest =>
      have := instDecidableWellFormed P rest
      inferInstanceAs (Decidable (_ ∧ _ ∧ _))
  | dir _ children rest =>
      have := instDecidableWellFormed P children
      have := instDecidableWellFormed P rest
      inferInstanceAs (Decidable (_ ∧ _ ∧ _ ∧ _))

/-- The number of the files that are not below a directory of a given name. -/
def fileCount [DecidableEq Name] (pruned : Name) : Listing Name Content -> Nat
  | nil => 0
  | file _ _ rest => 1 + rest.fileCount pruned
  | dir name children rest =>
      (if name = pruned then 0 else children.fileCount pruned) + rest.fileCount pruned

variable {listing : Listing Name Content} {path : List Name} {content : Content}

theorem HasFile.exists_cons (h : HasFile listing path content) :
    exists name below, path = name :: below ∧ name ∈ listing.names := by
  induction h with
  | here name content rest => exact ⟨name, [], rfl, List.mem_cons_self⟩
  | afterFile name first h ih =>
      rcases ih with ⟨found, below, hpath, hfound⟩
      exact ⟨found, below, hpath, List.mem_cons_of_mem _ hfound⟩
  | @inside name children rest path content h ih =>
      exact ⟨name, path, rfl, List.mem_cons_self⟩
  | afterDir name children h ih =>
      rcases ih with ⟨found, below, hpath, hfound⟩
      exact ⟨found, below, hpath, List.mem_cons_of_mem _ hfound⟩

theorem HasFile.ne_nil (h : HasFile listing path content) : path ≠ [] := by
  rcases h.exists_cons with ⟨name, below, hpath, _⟩
  rw [hpath]
  exact List.cons_ne_nil name below

theorem HasFile.mem_names {name : Name} {below : List Name}
    (h : HasFile listing (name :: below) content) : name ∈ listing.names := by
  rcases h.exists_cons with ⟨found, rest, hpath, hfound⟩
  rw [(List.cons.inj hpath).1]
  exact hfound

theorem HasFile.forall_names {P : Name -> Prop} (h : HasFile listing path content)
    (hwf : listing.WellFormed P) : forall name, name ∈ path -> P name := by
  induction h with
  | here name content rest =>
      intro found hfound
      rw [List.mem_singleton.mp hfound]
      exact hwf.1
  | afterFile name first h ih => exact ih hwf.2.2
  | inside name rest h ih =>
      intro found hfound
      cases List.mem_cons.mp hfound with
      | inl heq =>
          rw [heq]
          exact hwf.1
      | inr hbelow => exact ih hwf.2.2.1 found hbelow
  | afterDir name children h ih => exact ih hwf.2.2.2

theorem HasFile.unique {P : Name -> Prop} (hwf : listing.WellFormed P)
    (h : HasFile listing path content) {other : Content} (hother : HasFile listing path other) :
    content = other := by
  induction h with
  | here name content rest =>
      cases hother with
      | here => rfl
      | afterFile _ _ hrest => exact absurd hrest.mem_names hwf.2.1
  | afterFile name first h ih =>
      cases hother with
      | here => exact absurd h.mem_names hwf.2.1
      | afterFile _ _ hrest => exact ih hwf.2.2 hrest
  | inside name rest h ih =>
      cases hother with
      | inside _ _ hchildren => exact ih hwf.2.2.1 hchildren
      | afterDir _ _ hrest => exact absurd hrest.mem_names hwf.2.1
  | afterDir name children h ih =>
      cases hother with
      | inside _ _ hchildren => exact absurd h.mem_names hwf.2.1
      | afterDir _ _ hrest => exact ih hwf.2.2.2 hrest

end Listing
end RagService
