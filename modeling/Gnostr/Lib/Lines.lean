/-
Lists cut at a separator: at its first occurrence, at its first few occurrences, and
into the lines that successive reads up to a separator return.
-/
import Gnostr.Lib.Bytes
import Mathlib.Data.List.DropRight

namespace Gnostr

variable {α : Type*}

/-- A list does not begin in two ways. -/
theorem not_isPrefix_of_isPrefix {first second list : List α} (hfirst : first <+: list)
    (hnot : ¬ first <+: second) (hnot' : ¬ second <+: first) : ¬ second <+: list :=
  fun hsecond => (List.prefix_or_prefix_of_prefix hfirst hsecond).elim hnot hnot'

section Cut

variable [DecidableEq α] {separator : α}

theorem dropPrefix?_cons_of_ne {a b : α} (hne : a ≠ b) (list rest : List α) :
    (a :: list).dropPrefix? (b :: rest) = none := by
  rw [List.dropPrefix?, if_neg (by simpa using hne)]

theorem isPrefixOf_eq_isSome_dropPrefix? (first list : List α) :
    first.isPrefixOf list = (list.dropPrefix? first).isSome := by
  rw [Bool.eq_iff_iff, List.isPrefixOf_iff_prefix, Option.isSome_iff_exists]
  constructor
  · rintro ⟨rest, rfl⟩
    exact ⟨rest, List.dropPrefix?_append_of_beq _ (beq_self_eq_true _)⟩
  · rintro ⟨rest, hrest⟩
    obtain ⟨found, rfl, hfound⟩ := List.dropPrefix?_eq_some_iff.mp hrest
    exact ⟨rest, by rw [eq_of_beq hfound]⟩

/-- `split_once`. -/
def splitOnce (separator : α) : List α → Option (List α × List α)
  | [] => none
  | a :: rest =>
      if a = separator then some ([], rest)
      else (splitOnce separator rest).map fun parts => (a :: parts.1, parts.2)

theorem splitOnce_append {before : List α} (hbefore : separator ∉ before)
    (after : List α) :
    splitOnce separator (before ++ separator :: after) = some (before, after) := by
  induction before with
  | nil => rw [List.nil_append, splitOnce, if_pos rfl]
  | cons a before ih =>
      rw [List.mem_cons, not_or] at hbefore
      rw [List.cons_append, splitOnce, if_neg (Ne.symm hbefore.1), ih hbefore.2]
      rfl

theorem splitOnce_of_notMem {list : List α} (hlist : separator ∉ list) :
    splitOnce separator list = none := by
  induction list with
  | nil => rfl
  | cons a list ih =>
      rw [List.mem_cons, not_or] at hlist
      rw [splitOnce, if_neg (Ne.symm hlist.1), ih hlist.2]
      rfl

/-- The separator stands in no part of a list that is split at it. -/
theorem not_mem_of_mem_splitOn {list part : List α} (hpart : part ∈ list.splitOn separator) :
    separator ∉ part := by
  induction list generalizing part with
  | nil =>
      rw [List.splitOn_nil, List.mem_singleton] at hpart
      rw [hpart]
      exact List.not_mem_nil
  | cons a list ih =>
      rw [List.splitOn_cons_eq_if_modifyHead] at hpart
      split at hpart
      · rcases List.mem_cons.mp hpart with rfl | hpart
        · exact List.not_mem_nil
        · exact ih hpart
      · rename_i hne
        obtain ⟨head, others, hsplit⟩ :=
          List.exists_cons_of_ne_nil (List.splitOn_ne_nil separator list)
        rw [hsplit, List.modifyHead_cons, List.mem_cons] at hpart
        rcases hpart with rfl | hpart
        · have hhead := ih (hsplit ▸ List.mem_cons_self)
          exact List.not_mem_cons_of_ne_of_not_mem (fun heq => hne (beq_of_eq heq.symm))
            hhead
        · exact ih (hsplit ▸ List.mem_cons_of_mem head hpart)

/-- `splitn`: at most the given number of parts, the last one uncut. -/
def splitn (separator : α) : ℕ → List α → List (List α)
  | 0, _ => []
  | 1, list => [list]
  | parts + 2, list =>
      match splitOnce separator list with
      | none => [list]
      | some (first, rest) => first :: splitn separator (parts + 1) rest

theorem splitn_append {before : List α} (hbefore : separator ∉ before)
    (parts : ℕ) (after : List α) :
    splitn separator (parts + 2) (before ++ separator :: after) =
      before :: splitn separator (parts + 1) after := by
  rw [splitn, splitOnce_append hbefore]

theorem splitn_of_notMem {list : List α} (hlist : separator ∉ list) (parts : ℕ) :
    splitn separator (parts + 1) list = [list] := by
  cases parts with
  | zero => rfl
  | succ parts => rw [splitn, splitOnce_of_notMem hlist]

/-- With two separators a list is cut at the first two. -/
theorem exists_eq_of_two_le_count {list : List α} (hcount : 2 ≤ list.count separator) :
    ∃ first second third, list = first ++ separator :: (second ++ separator :: third) ∧
      separator ∉ first ∧ separator ∉ second := by
  have hmem : separator ∈ list := List.count_pos_iff.mp (by omega)
  obtain ⟨first, rest, rfl, hfirst⟩ := List.eq_append_cons_of_mem hmem
  rw [List.count_append, List.count_cons_self, List.count_eq_zero.mpr hfirst] at hcount
  have hrest : separator ∈ rest := List.count_pos_iff.mp (by omega)
  obtain ⟨second, third, rfl, hsecond⟩ := List.eq_append_cons_of_mem hrest
  exact ⟨first, second, third, rfl, hfirst, hsecond⟩

/-- With fewer there are not three parts. -/
theorem length_splitn_lt_three {list : List α} (hcount : list.count separator < 2) :
    (splitn separator 3 list).length < 3 := by
  by_cases hmem : separator ∈ list
  · obtain ⟨first, rest, rfl, hfirst⟩ := List.eq_append_cons_of_mem hmem
    rw [List.count_append, List.count_cons_self, List.count_eq_zero.mpr hfirst] at hcount
    have hrest : separator ∉ rest := List.count_eq_zero.mp (by omega)
    rw [splitn_append hfirst, splitn_of_notMem hrest]
    exact Nat.lt_succ_self 2
  · rw [splitn_of_notMem hmem]
    exact Nat.one_lt_succ_succ 1

/-- What successive reads up to and including a separator return; the last one may
end without it. -/
def readLines (separator : α) : List α → List (List α)
  | [] => []
  | a :: rest =>
      if a = separator then [a] :: readLines separator rest
      else
        match readLines separator rest with
        | [] => [[a]]
        | line :: lines => (a :: line) :: lines

theorem readLines_append {before : List α} (hbefore : separator ∉ before)
    (after : List α) :
    readLines separator (before ++ separator :: after) =
      (before ++ [separator]) :: readLines separator after := by
  induction before with
  | nil => rw [List.nil_append, readLines, if_pos rfl, List.nil_append]
  | cons a before ih =>
      rw [List.mem_cons, not_or] at hbefore
      rw [List.cons_append, readLines, if_neg (Ne.symm hbefore.1), ih hbefore.2]
      rfl

theorem readLines_of_notMem {list : List α} (hne : list ≠ [])
    (hlist : separator ∉ list) : readLines separator list = [list] := by
  induction list with
  | nil => exact absurd rfl hne
  | cons a list ih =>
      rw [List.mem_cons, not_or] at hlist
      rw [readLines, if_neg (Ne.symm hlist.1)]
      by_cases hrest : list = []
      · rw [hrest]
        rfl
      · rw [ih hrest hlist.2]

/-- Lines that are written with their separators are read as they are. -/
theorem readLines_flatMap {lines : List (List α)}
    (hlines : ∀ line ∈ lines, separator ∉ line) (rest : List α) :
    readLines separator ((lines.flatMap fun line => line ++ [separator]) ++ rest) =
      lines.map (fun line => line ++ [separator]) ++ readLines separator rest := by
  induction lines with
  | nil => rfl
  | cons line lines ih =>
      rw [List.flatMap_cons, List.append_assoc, List.append_assoc,
        List.singleton_append, readLines_append (hlines line List.mem_cons_self),
        ih fun line hline => hlines line (List.mem_cons_of_mem _ hline)]
      rfl

/-- A separator ends what is read. -/
theorem notMem_of_mem_readLines {list line : List α}
    (hline : line ++ [separator] ∈ readLines separator list) : separator ∉ line := by
  induction list generalizing line with
  | nil => exact absurd hline List.not_mem_nil
  | cons a list ih =>
      rw [readLines] at hline
      split at hline
      · rcases List.mem_cons.mp hline with hfirst | hrest
        · rw [List.append_eq_singleton_iff] at hfirst
          rcases hfirst with ⟨rfl, _⟩ | ⟨_, hnil⟩
          · exact List.not_mem_nil
          · cases hnil
        · exact ih hrest
      · rename_i hne
        cases hread : readLines separator list with
        | nil =>
            rw [hread, List.mem_singleton, List.append_eq_singleton_iff] at hline
            rcases hline with ⟨rfl, _⟩ | ⟨_, hnil⟩
            · exact List.not_mem_nil
            · cases hnil
        | cons first rest =>
            rw [hread] at hline ih
            rcases List.mem_cons.mp hline with hfirst | hrest
            · cases line with
              | nil => exact List.not_mem_nil
              | cons b line =>
                  have hparts := List.cons.inj hfirst
                  rw [List.mem_cons, not_or]
                  exact ⟨fun heq => hne (hparts.1.symm.trans heq.symm),
                    ih (List.mem_cons.mpr (Or.inl hparts.2))⟩
            · exact ih (List.mem_cons_of_mem _ hrest)

end Cut

section TrimEnd

variable {p : α → Bool}

/-- Nothing is dropped from the end up to an element that stays. -/
theorem rdropWhile_append_cons {a : α} (ha : p a = false) (before after : List α) :
    (before ++ a :: after).rdropWhile p = before ++ a :: after.rdropWhile p := by
  induction after using List.reverseRecOn with
  | nil =>
      rw [List.rdropWhile_concat_neg _ _ _ (by rw [ha]; exact Bool.false_ne_true)]
      rfl
  | append_singleton after b ih =>
      have hassoc : before ++ a :: (after ++ [b]) = before ++ a :: after ++ [b] := by
        simp
      rw [hassoc]
      by_cases hb : p b = true
      · rw [List.rdropWhile_concat_pos _ _ _ hb, ih,
          List.rdropWhile_concat_pos _ _ _ hb]
      · rw [List.rdropWhile_concat_neg _ _ _ hb, List.rdropWhile_concat_neg _ _ _ hb,
          hassoc]

theorem rdropWhile_cons (a : α) (list : List α) :
    (a :: list).rdropWhile p =
      if list.rdropWhile p = [] then [a].rdropWhile p else a :: list.rdropWhile p := by
  induction list using List.reverseRecOn with
  | nil => rw [List.rdropWhile_nil, if_pos rfl]
  | append_singleton list b ih =>
      rw [← List.cons_append]
      by_cases hb : p b = true
      · rw [List.rdropWhile_concat_pos _ _ _ hb, ih,
          List.rdropWhile_concat_pos _ _ _ hb]
      · rw [List.rdropWhile_concat_neg _ _ _ hb, List.rdropWhile_concat_neg _ _ _ hb,
          if_neg (List.append_ne_nil_of_right_ne_nil _ (List.cons_ne_nil _ _)),
          List.cons_append]

end TrimEnd

/-- The byte of a line break. -/
def lineBreak : UInt8 := 10

/-- No other character has the byte of a line break in it. -/
theorem lineBreak_notMem_utf8EncodeChar {c : Char} (hc : c ≠ '\n') :
    lineBreak ∉ String.utf8EncodeChar c := by
  have hval : c.val.toNat ≠ 10 := fun hval =>
    hc (Char.ext (UInt32.toNat_inj.mp hval))
  have hbyte : ∀ n < 256, n ≠ 10 → lineBreak ≠ UInt8.ofNat n := by
    intro n hn hne heq
    have hnat := congrArg UInt8.toNat heq
    rw [UInt8.toNat_ofNat', Nat.mod_eq_of_lt hn] at hnat
    exact hne hnat.symm
  unfold String.utf8EncodeChar
  dsimp only
  -- the bytes of a longer sequence are at least 0x80
  split
  · simp only [List.mem_cons, List.not_mem_nil, or_false]
    exact hbyte _ (by omega) hval
  · split
    · simp only [List.mem_cons, List.not_mem_nil, or_false, not_or]
      exact ⟨hbyte _ (by omega) (by omega), hbyte _ (by omega) (by omega)⟩
    · split
      · simp only [List.mem_cons, List.not_mem_nil, or_false, not_or]
        exact ⟨hbyte _ (by omega) (by omega), hbyte _ (by omega) (by omega),
          hbyte _ (by omega) (by omega)⟩
      · simp only [List.mem_cons, List.not_mem_nil, or_false, not_or]
        exact ⟨hbyte _ (by omega) (by omega), hbyte _ (by omega) (by omega),
          hbyte _ (by omega) (by omega), hbyte _ (by omega) (by omega)⟩

theorem lineBreak_notMem_utf8 {text : String} (htext : '\n' ∉ text.toList) :
    lineBreak ∉ utf8 text := by
  rw [utf8_eq_flatMap, List.mem_flatMap]
  rintro ⟨c, hc, hbyte⟩
  exact lineBreak_notMem_utf8EncodeChar (fun heq => htext (heq ▸ hc)) hbyte

end Gnostr
