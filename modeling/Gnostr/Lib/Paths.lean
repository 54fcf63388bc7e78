/-
Paths of a Unix file system as texts: their components, how one is joined to another, and
what it is for a path to stay inside a directory, component by component.
-/
import Gnostr.Lib.Lines

namespace Gnostr

abbrev UnixPath := List Char

namespace UnixPath

/-- A component of a path.  There is no drive on Unix. -/
inductive Component
  | rootDir
  | curDir
  | parentDir
  | normal (name : List Char)
deriving DecidableEq

/-- What stands between two slashes.  Nothing, or a dot, is no component. -/
def component? (part : List Char) : Option Component :=
  if part = [] ∨ part = ['.'] then none
  else if part = ['.', '.'] then some .parentDir
  else some (.normal part)

/-- The components but for those that only the start of a path can have. -/
def body (path : UnixPath) : List Component := (path.splitOn '/').filterMap component?

def IsAbsolute (path : UnixPath) : Prop := path.head? = some '/'

instance (path : UnixPath) : Decidable path.IsAbsolute :=
  inferInstanceAs (Decidable (path.head? = some '/'))

/-- `components`. -/
def components (path : UnixPath) : List Component :=
  if path.IsAbsolute then .rootDir :: path.body
  else if (path.splitOn '/').head? = some ['.'] then .curDir :: path.body
  else path.body

/-- `Path::join`: an absolute path takes the place of the other one. -/
def join (base path : UnixPath) : UnixPath :=
  if path.IsAbsolute then path
  else if base = [] ∨ base.getLast? = some '/' then base ++ path
  else base ++ '/' :: path

/-- How deep components lead below a directory, from a depth on, if they never leave
it. -/
def descend : List Component → ℕ → Option ℕ
  | [], depth => some depth
  | .rootDir :: _, _ => none
  | .curDir :: rest, depth => descend rest depth
  | .parentDir :: _, 0 => none
  | .parentDir :: rest, depth + 1 => descend rest depth
  | .normal _ :: rest, depth => descend rest (depth + 1)

/-- The path begins with the components of the directory, and the others never leave
it. -/
def Inside (directory path : UnixPath) : Prop :=
  ∃ rest, path.components = directory.components ++ rest ∧ (descend rest 0).isSome

section Join

variable {base path : UnixPath}

theorem body_append_slash (base path : UnixPath) :
    body (base ++ '/' :: path) = body base ++ body path := by
  rw [body, List.splitOn_append_cons_self, List.filterMap_append]
  rfl


theorem components_append_slash (hbase : base ≠ []) (path : UnixPath) :
    components (base ++ '/' :: path) = components base ++ body path := by
  have habsolute : IsAbsolute (base ++ '/' :: path) ↔ base.IsAbsolute := by
    rw [IsAbsolute, IsAbsolute, List.head?_append_of_ne_nil base hbase]
  have hhead : ((base ++ '/' :: path).splitOn '/').head? = (base.splitOn '/').head? := by
    rw [List.splitOn_append_cons_self,
      List.head?_append_of_ne_nil _ (List.splitOn_ne_nil '/' base)]
  unfold components
  rw [hhead, body_append_slash, if_congr habsolute rfl rfl]
  split_ifs <;> rfl

/-- A relative path adds its components, but for a dot that it starts with. -/
theorem components_join (hbase : base ≠ []) (hpath : ¬ path.IsAbsolute) :
    (base.join path).components = base.components ++ path.body := by
  rw [join, if_neg hpath]
  split_ifs with hslash
  · have hlast := hslash.resolve_left hbase
    obtain ⟨start, rfl⟩ := List.getLast?_eq_some_iff.mp hlast
    rw [List.append_assoc, List.singleton_append]
    by_cases hstart : start = []
    · subst hstart
      exact congrArg (Component.rootDir :: ·) (body_append_slash [] path)
    · rw [components_append_slash hstart, components_append_slash hstart]
      exact congrArg (· ++ body path) (List.append_nil _).symm
  · exact components_append_slash hbase path

/-- A name is one component, and it has no slash. -/
structure IsName (name : List Char) : Prop where
  component : component? name = some (.normal name)
  no_slash : '/' ∉ name

namespace IsName

variable {name : List Char} (hname : IsName name)

include hname

theorem ne_nil : name ≠ [] := by
  rintro rfl
  exact Option.some_ne_none _ hname.component.symm

theorem not_isAbsolute : ¬ IsAbsolute name :=
  fun habsolute => hname.no_slash (List.mem_of_head? habsolute)

theorem body : UnixPath.body name = [.normal name] := by
  rw [UnixPath.body, List.splitOn_eq_singleton hname.no_slash, List.filterMap_cons,
    hname.component]
  rfl

theorem components : UnixPath.components name = [.normal name] := by
  have hdot : name ≠ ['.'] := by
    rintro rfl
    exact Option.some_ne_none _ hname.component.symm
  rw [UnixPath.components, if_neg hname.not_isAbsolute,
    List.splitOn_eq_singleton hname.no_slash, List.head?_cons,
    if_neg fun heq => hdot (Option.some.inj heq), hname.body]

/-- A name adds itself to a path. -/
theorem components_join (base : UnixPath) :
    (base.join name).components = base.components ++ [.normal name] := by
  by_cases hbase : base = []
  · subst hbase
    rw [join, if_neg hname.not_isAbsolute, if_pos (.inl rfl)]
    exact hname.components
  · rw [UnixPath.components_join hbase hname.not_isAbsolute, hname.body]

theorem join_ne_nil (base : UnixPath) : base.join name ≠ [] := by
  rw [join, if_neg hname.not_isAbsolute]
  split_ifs
  · exact List.append_ne_nil_of_right_ne_nil base hname.ne_nil
  · exact List.append_ne_nil_of_right_ne_nil base (List.cons_ne_nil _ _)

end IsName

theorem body_join (hpath : ¬ path.IsAbsolute) :
    (base.join path).body = base.body ++ path.body := by
  rw [join, if_neg hpath]
  split_ifs with hslash
  · rcases hslash with rfl | hlast
    · rfl
    · obtain ⟨start, rfl⟩ := List.getLast?_eq_some_iff.mp hlast
      rw [List.append_assoc, List.singleton_append, body_append_slash, body_append_slash]
      exact congrArg (· ++ body path) (List.append_nil _).symm
  · exact body_append_slash base path

theorem not_isAbsolute_join (hbase : ¬ base.IsAbsolute) (hpath : ¬ path.IsAbsolute) :
    ¬ (base.join path).IsAbsolute := by
  unfold join
  rw [if_neg hpath]
  by_cases hnil : base = []
  · rw [if_pos (.inl hnil), hnil]
    exact hpath
  · split_ifs <;> rwa [IsAbsolute, List.head?_append_of_ne_nil base hnil]

end Join

section Descend

/-- A dot at the start leads nowhere. -/
theorem descend_components {path : UnixPath} (hpath : ¬ path.IsAbsolute) (depth : ℕ) :
    descend path.components depth = descend path.body depth := by
  rw [components, if_neg hpath]
  split_ifs <;> rfl

/-- Names only lead deeper. -/
theorem isSome_descend_of_normal {components : List Component}
    (hnormal : ∀ component ∈ components, ∃ name, component = .normal name) (depth : ℕ) :
    (descend components depth).isSome := by
  induction components generalizing depth with
  | nil => rfl
  | cons component components ih =>
      obtain ⟨⟨name, rfl⟩, hrest⟩ := List.forall_mem_cons.mp hnormal
      exact ih hrest (depth + 1)

end Descend

section Inside

variable {directory path : UnixPath}

/-- A directory and a path are compared by what the path adds. -/
theorem inside_iff_of_components_eq {rest : List Component}
    (hrest : path.components = directory.components ++ rest) :
    Inside directory path ↔ (descend rest 0).isSome := by
  constructor
  · rintro ⟨rest', hrest', hdescend⟩
    rwa [List.append_cancel_left (hrest.symm.trans hrest')]
  · exact fun hdescend => ⟨rest, hrest, hdescend⟩

/-- A relative path that is joined to a directory is inside if it never leaves. -/
theorem inside_join_iff (hpath : ¬ path.IsAbsolute) :
    Inside directory (directory.join path) ↔ (descend path.body 0).isSome := by
  by_cases hdirectory : directory = []
  · subst hdirectory
    rw [join, if_neg hpath, if_pos (.inl rfl), List.nil_append]
    have hrest : path.components = components [] ++ path.components := rfl
    rw [inside_iff_of_components_eq hrest, descend_components hpath]
  · exact inside_iff_of_components_eq (components_join hdirectory hpath)

end Inside

end UnixPath

end Gnostr
