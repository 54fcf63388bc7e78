/-
Directories with what is in them, in the order in which they are listed.  Writing a file
puts the content in its place or adds a file, and leaves all other files as they are.
-/
import Mathlib.Data.String.Basic

namespace Gnostr

/-- The rest of a directory as it is listed: a file with its content or the error of reading
it, a directory within, or an error of listing what follows. -/
inductive DirTree (ε : Type*) where
  | nil
  | unreadable (error : ε)
  | file (name : String) (content : Except ε String) (rest : DirTree ε)
  | dir (name : String) (sub rest : DirTree ε)
deriving DecidableEq

namespace DirTree

variable {ε : Type*}

/-- The content of the file with a name, if there is one. -/
def readFile (name : String) : DirTree ε → Option (Except ε String)
  | nil => none
  | unreadable _ => none
  | file other content rest => if other = name then some content else rest.readFile name
  | dir other _ rest => if other = name then none else rest.readFile name

/-- There is a file or a directory with the name. -/
def has (name : String) : DirTree ε → Bool
  | nil => false
  | unreadable _ => false
  | file other _ rest => other = name || rest.has name
  | dir other _ rest => other = name || rest.has name

/-- The directory with the content in the file with the name, unless a directory has it. -/
def writeFile (name content : String) : DirTree ε → Option (DirTree ε)
  | nil => some (file name (.ok content) nil)
  | unreadable error => some (file name (.ok content) (unreadable error))
  | file other found rest =>
      if other = name then some (file name (.ok content) rest)
      else (rest.writeFile name content).map (file other found)
  | dir other sub rest =>
      if other = name then none else (rest.writeFile name content).map (dir other sub)

/-- Everything can be listed, here and in the directories within. -/
def Readable : DirTree ε → Prop
  | nil => True
  | unreadable _ => False
  | file _ _ rest => rest.Readable
  | dir _ sub rest => sub.Readable ∧ rest.Readable

variable {tree written : DirTree ε} {name other content : String}

theorem readFile_of_writeFile (hwrite : tree.writeFile name content = some written) :
    written.readFile name = some (.ok content) := by
  induction tree generalizing written with
  | nil =>
      obtain rfl := Option.some.inj hwrite
      exact if_pos rfl
  | unreadable error =>
      obtain rfl := Option.some.inj hwrite
      exact if_pos rfl
  | file found old rest ih =>
      rw [writeFile] at hwrite
      split_ifs at hwrite with heq
      · obtain rfl := Option.some.inj hwrite
        exact if_pos rfl
      · obtain ⟨rest', hrest, rfl⟩ := Option.map_eq_some_iff.mp hwrite
        rw [readFile, if_neg heq, ih hrest]
  | dir found sub rest _ ih =>
      rw [writeFile] at hwrite
      split_ifs at hwrite with heq
      obtain ⟨rest', hrest, rfl⟩ := Option.map_eq_some_iff.mp hwrite
      rw [readFile, if_neg heq, ih hrest]

/-- All other files are as they were. -/
theorem readFile_of_writeFile_of_ne (hwrite : tree.writeFile name content = some written)
    (hne : other ≠ name) : written.readFile other = tree.readFile other := by
  induction tree generalizing written with
  | nil =>
      obtain rfl := Option.some.inj hwrite
      exact if_neg hne.symm
  | unreadable error =>
      obtain rfl := Option.some.inj hwrite
      exact if_neg hne.symm
  | file found old rest ih =>
      rw [writeFile] at hwrite
      split_ifs at hwrite with heq
      · obtain rfl := Option.some.inj hwrite
        rw [readFile, readFile, if_neg hne.symm, if_neg (heq ▸ hne.symm)]
      · obtain ⟨rest', hrest, rfl⟩ := Option.map_eq_some_iff.mp hwrite
        rw [readFile, readFile, ih hrest]
  | dir found sub rest _ ih =>
      rw [writeFile] at hwrite
      split_ifs at hwrite with heq
      obtain ⟨rest', hrest, rfl⟩ := Option.map_eq_some_iff.mp hwrite
      rw [readFile, readFile, ih hrest]

/-- What is there already can be written again, and nothing changes. -/
theorem writeFile_of_readFile (hread : tree.readFile name = some (.ok content)) :
    tree.writeFile name content = some tree := by
  induction tree with
  | nil => cases hread
  | unreadable error => cases hread
  | file found old rest ih =>
      rw [readFile] at hread
      rw [writeFile]
      split_ifs at hread ⊢ with heq
      · obtain rfl := Option.some.inj hread
        rw [heq]
      · rw [ih hread, Option.map_some]
  | dir found sub rest _ ih =>
      rw [readFile] at hread
      rw [writeFile]
      split_ifs at hread ⊢ with heq
      rw [ih hread, Option.map_some]

theorem has_of_readFile {content : Except ε String}
    (hread : tree.readFile name = some content) : tree.has name = true := by
  induction tree with
  | nil => cases hread
  | unreadable error => cases hread
  | file found old rest ih =>
      rw [readFile] at hread
      rw [has, Bool.or_eq_true, decide_eq_true_eq]
      split_ifs at hread with heq
      · exact .inl heq
      · exact .inr (ih hread)
  | dir found sub rest _ ih =>
      rw [readFile] at hread
      rw [has, Bool.or_eq_true]
      split_ifs at hread
      exact .inr (ih hread)

theorem Readable.of_writeFile (hreadable : tree.Readable)
    (hwrite : tree.writeFile name content = some written) : written.Readable := by
  induction tree generalizing written with
  | nil =>
      obtain rfl := Option.some.inj hwrite
      exact trivial
  | unreadable error => exact hreadable.elim
  | file found old rest ih =>
      rw [writeFile] at hwrite
      split_ifs at hwrite with heq
      · obtain rfl := Option.some.inj hwrite
        exact hreadable
      · obtain ⟨rest', hrest, rfl⟩ := Option.map_eq_some_iff.mp hwrite
        change rest'.Readable
        exact ih hreadable hrest
  | dir found sub rest _ ih =>
      rw [writeFile] at hwrite
      split_ifs at hwrite with heq
      obtain ⟨rest', hrest, rfl⟩ := Option.map_eq_some_iff.mp hwrite
      exact ⟨hreadable.1, ih hreadable.2 hrest⟩

end DirTree

end Gnostr
