/-
Words that stand alone: an expression between two ends of a word finds maximal
runs of word characters, or such runs behind a fixed run and a separator.
-/
import Gnostr.Lib.Finder
import Gnostr.Lib.Regex

namespace Gnostr

open String (utf8Len)

/-- No word character is next to this place of a text. -/
@[mk_iff]
structure StandsAlone (isWord : Char → Bool) (before after : List Char) : Prop where
  left : ∀ c ∈ before.getLast?, isWord c = false
  right : ∀ c ∈ after.head?, isWord c = false

instance (isWord : Char → Bool) (before after : List Char) :
    Decidable (StandsAlone isWord before after) :=
  decidable_of_iff (before.getLast?.all (fun c => !isWord c) = true ∧
    after.head?.all (fun c => !isWord c) = true) <| by
      simp [standsAlone_iff, Option.all_eq_true]

/-- A maximal run of word characters. -/
structure IsRun (isWord : Char → Bool) (before word after : List Char) : Prop
    extends StandsAlone isWord before after where
  ne_nil : word ≠ []
  all : ∀ c ∈ word, isWord c = true

namespace IsRun

variable {isWord : Char → Bool} {before word after before' word' after' : List Char}

theorem takeWhile_eq (hrun : IsRun isWord before word after) :
    (word ++ after).takeWhile isWord = word := by
  rw [List.takeWhile_append_of_pos hrun.all]
  cases after with
  | nil => exact List.append_nil word
  | cons c after =>
      rw [List.takeWhile_cons_of_neg, List.append_nil]
      rw [hrun.right c rfl]
      exact Bool.false_ne_true

/-- A run ends before the next one begins. -/
theorem eq_or_length_lt (hrun : IsRun isWord before word after)
    (hrun' : IsRun isWord before' word' after')
    (htext : before ++ (word ++ after) = before' ++ (word' ++ after'))
    (hle : before.length ≤ before'.length) :
    before' = before ∧ word' = word ∧ after' = after ∨
      before.length + word.length < before'.length := by
  obtain ⟨gap, rfl⟩ : before <+: before' :=
    List.prefix_of_prefix_length_le ⟨_, htext⟩ ⟨_, rfl⟩ hle
  rw [List.append_assoc] at htext
  have hrest := List.append_cancel_left htext
  rcases List.eq_nil_or_concat gap with rfl | ⟨gap, c, rfl⟩
  · rw [List.nil_append] at hrest
    have hword : word' = word := by
      rw [← hrun.takeWhile_eq, hrest, hrun'.takeWhile_eq]
    subst hword
    exact Or.inl ⟨List.append_nil _, rfl, (List.append_cancel_left hrest).symm⟩
  · -- the separator before the second run is not in the first
    right
    by_contra hlong
    have hc : isWord c = false := by
      refine hrun'.left c ?_
      rw [List.concat_eq_append, ← List.append_assoc, List.getLast?_concat]
      rfl
    have hgap : gap.concat c <+: word := by
      refine List.prefix_of_prefix_length_le ⟨_, hrest.symm⟩ ⟨_, rfl⟩ ?_
      rw [List.length_append] at hlong
      omega
    have hmem : c ∈ gap.concat c := by simp
    have hword := hrun.all c (hgap.subset hmem)
    rw [hc] at hword
    cases hword

end IsRun

/-- The two ends of a word around a group. -/
def GroupRegex.delimited (isWord : Char → Bool) (group : Regex) : GroupRegex where
  left := .alt .start (.one fun c => !isWord c)
  group := group
  right := .alt .stop (.one fun c => !isWord c)

section Delimited

variable {isWord : Char → Bool} {group : Regex} {text : List Char}

theorem GroupRegex.Match.standsAlone
    (found : (GroupRegex.delimited isWord group).Match text) :
    StandsAlone isWord (found.before ++ found.left) (found.right ++ found.after) := by
  constructor
  · intro c hc
    rcases found.left_matches with ⟨hleft, hbefore⟩ | ⟨d, hleft, hd⟩
    · rw [hleft, hbefore] at hc
      cases hc
    · rw [hleft, List.getLast?_concat] at hc
      cases hc
      simpa using hd
  · intro c hc
    rcases found.right_matches with ⟨hright, hafter⟩ | ⟨d, hright, hd⟩
    · rw [hright, hafter] at hc
      cases hc
    · rw [hright] at hc
      cases hc
      simpa using hd

/-- A word that stands alone is matched. -/
theorem GroupRegex.exists_match {before word after : List Char}
    (hgroup : group.Matches before word after)
    (halone : StandsAlone isWord before after) :
    ∃ found : (GroupRegex.delimited isWord group).Match (before ++ (word ++ after)),
      found.before ++ found.left = before ∧ found.word = word ∧
        found.right ++ found.after = after := by
  obtain ⟨first, left, rfl, hleft⟩ : ∃ first left, before = first ++ left ∧
      ∀ rest, (GroupRegex.delimited isWord group).left.Matches first left rest := by
    rcases List.eq_nil_or_concat before with rfl | ⟨first, c, rfl⟩
    · exact ⟨[], [], rfl, fun _ => Or.inl ⟨rfl, rfl⟩⟩
    · rw [List.concat_eq_append] at halone ⊢
      have hc := halone.left c (by rw [List.getLast?_concat]; rfl)
      exact ⟨first, [c], rfl, fun _ => Or.inr ⟨c, rfl, congrArg (!·) hc⟩⟩
  obtain ⟨right, last, rfl, hright⟩ : ∃ right last, after = right ++ last ∧
      ∀ start, (GroupRegex.delimited isWord group).right.Matches start right last := by
    cases after with
    | nil => exact ⟨[], [], rfl, fun _ => Or.inl ⟨rfl, rfl⟩⟩
    | cons c last =>
        have hc := halone.right c rfl
        exact ⟨[c], last, rfl, fun _ => Or.inr ⟨c, rfl, congrArg (!·) hc⟩⟩
  exact ⟨⟨first, left, word, right, last, List.append_assoc _ _ _, hleft _, hgroup,
    hright _⟩, rfl, rfl, rfl⟩

/-- Of two matches whose words begin with a word character, the one that begins
first has the first word. -/
theorem GroupRegex.Match.length_le
    (found other : (GroupRegex.delimited isWord group).Match text)
    (hword : ∃ c rest, other.word = c :: rest ∧ isWord c = true)
    (hle : found.before.length ≤ other.before.length) :
    (found.before ++ found.left).length ≤ (other.before ++ other.left).length := by
  rw [List.length_append, List.length_append]
  rcases found.left_matches with ⟨hleft, hbefore⟩ | ⟨d, hleft, hd⟩
  · rw [hleft, hbefore]
    exact Nat.zero_le _
  · rcases other.left_matches with ⟨hleft', hbefore'⟩ | ⟨d', hleft', _⟩
    · -- a text cannot begin with a separator and with a word
      obtain ⟨c, rest, hc, hisWord⟩ := hword
      rw [hbefore'] at hle
      have hbefore := List.length_eq_zero_iff.mp (Nat.le_zero.mp hle)
      have htext := found.text_eq.symm.trans other.text_eq
      rw [hbefore, hleft, hbefore', hleft', hc] at htext
      have hhead : d = c := (List.cons.inj htext).1
      simp [hhead, hisWord] at hd
    · rw [hleft, hleft']
      exact Nat.add_le_add_right hle 1

end Delimited

/-- Bodies are words, behind nothing or behind a word that is no body and a
separator. -/
structure LeadAndBody (isWord : Char → Bool) (lead : List Char)
    (IsBody : List Char → Prop) : Prop where
  ne_nil : ∀ {body : List Char}, IsBody body → body ≠ []
  all : ∀ {body : List Char}, IsBody body → ∀ c ∈ body, isWord c = true
  lead_cases : lead = [] ∨ ∃ run separator, lead = run ++ [separator] ∧
    run ≠ [] ∧ (∀ c ∈ run, isWord c = true) ∧ isWord separator = false ∧
      ¬ IsBody run

namespace LeadAndBody

variable {isWord : Char → Bool} {lead : List Char} {IsBody : List Char → Prop}

/-- Between two ends of a word stand the lead and a body. -/
def Occurs (isWord : Char → Bool) (lead : List Char) (IsBody : List Char → Prop)
    (before word after : List Char) : Prop :=
  StandsAlone isWord before after ∧ ∃ body, word = lead ++ body ∧ IsBody body

theorem exists_head (hshape : LeadAndBody isWord lead IsBody) {body : List Char}
    (hbody : IsBody body) : ∃ c rest, lead ++ body = c :: rest ∧ isWord c = true := by
  rcases hshape.lead_cases with rfl | ⟨run, separator, rfl, hrun, hall, _⟩
  · obtain ⟨c, rest, rfl⟩ := List.exists_cons_of_ne_nil (hshape.ne_nil hbody)
    exact ⟨c, rest, rfl, hshape.all hbody c List.mem_cons_self⟩
  · obtain ⟨c, rest, rfl⟩ := List.exists_cons_of_ne_nil hrun
    exact ⟨c, _, rfl, hall c List.mem_cons_self⟩

theorem exists_last (hshape : LeadAndBody isWord lead IsBody) {body : List Char}
    (hbody : IsBody body) :
    ∃ c, (lead ++ body).getLast? = some c ∧ isWord c = true := by
  rcases List.eq_nil_or_concat body with rfl | ⟨first, c, rfl⟩
  · exact absurd rfl (hshape.ne_nil hbody)
  · refine ⟨c, ?_, hshape.all hbody c (by simp)⟩
    rw [List.concat_eq_append, ← List.append_assoc, List.getLast?_concat]

/-- The body is a run. -/
theorem isRun (hshape : LeadAndBody isWord lead IsBody)
    {before body after : List Char} (halone : StandsAlone isWord before after)
    (hbody : IsBody body) : IsRun isWord (before ++ lead) body after where
  left := by
    intro c hc
    rcases hshape.lead_cases with rfl | ⟨run, separator, rfl, _, _, hseparator, _⟩
    · rw [List.append_nil] at hc
      exact halone.left c hc
    · rw [← List.append_assoc, List.getLast?_concat] at hc
      cases hc
      exact hseparator
  right := halone.right
  ne_nil := hshape.ne_nil hbody
  all := hshape.all hbody

/-- One word ends before the lead of the next one begins. -/
theorem length_le (hshape : LeadAndBody isWord lead IsBody)
    {before body after before' body' after' : List Char}
    (halone : StandsAlone isWord before after) (hbody : IsBody body)
    (halone' : StandsAlone isWord before' after') (hbody' : IsBody body')
    (htext : before ++ (lead ++ body ++ after) =
      before' ++ (lead ++ body' ++ after'))
    (hlt : before.length < before'.length) :
    before.length + (lead ++ body).length ≤ before'.length := by
  have hfirst := hshape.isRun halone hbody
  have hsecond := hshape.isRun halone' hbody'
  rw [List.length_append]
  rcases hshape.lead_cases with rfl | ⟨run, separator, rfl, hrun, hall, hseparator, hnot⟩
  · simp only [List.append_nil] at hfirst hsecond
    rcases hfirst.eq_or_length_lt hsecond htext hlt.le with ⟨rfl, _⟩ | hends
    · exact absurd hlt (Nat.lt_irrefl _)
    · simpa using hends.le
  · -- the run of the second lead comes after the first body
    have hlead : IsRun isWord before' run (separator :: (body' ++ after')) := by
      refine ⟨⟨halone'.left, ?_⟩, hrun, hall⟩
      rintro c ⟨⟩
      exact hseparator
    have htext' : before ++ (run ++ [separator]) ++ (body ++ after) =
        before' ++ (run ++ (separator :: (body' ++ after'))) := by
      simpa using htext
    have hlength : (before ++ (run ++ [separator])).length =
        before.length + run.length + 1 := by
      simp [Nat.add_assoc]
    have hleadLength : (run ++ [separator]).length = run.length + 1 :=
      List.length_append
    rcases Nat.le_total (before ++ (run ++ [separator])).length before'.length
      with hle | hge
    · rcases hfirst.eq_or_length_lt hlead htext' hle with ⟨_, hsame, _⟩ | hends
      · exact absurd (hsame ▸ hbody) hnot
      · omega
    · rcases hlead.eq_or_length_lt hfirst htext'.symm hge with
        ⟨_, hsame, _⟩ | hends
      · exact absurd (hsame ▸ hbody) hnot
      · omega

/-- Of two words in a text one comes after the other. -/
theorem eq_or_after (hshape : LeadAndBody isWord lead IsBody)
    {before word after before' word' after' : List Char}
    (hoccurs : Occurs isWord lead IsBody before word after)
    (hoccurs' : Occurs isWord lead IsBody before' word' after')
    (htext : before ++ (word ++ after) = before' ++ (word' ++ after'))
    (hle : before.length ≤ before'.length) :
    before' = before ∧ word' = word ∧ after' = after ∨
      ∃ gap, before' = before ++ (word ++ gap) ∧
        after = gap ++ (word' ++ after') := by
  obtain ⟨halone, body, rfl, hbody⟩ := hoccurs
  obtain ⟨halone', body', rfl, hbody'⟩ := hoccurs'
  rcases Nat.eq_or_lt_of_le hle with heq | hlt
  · obtain ⟨rfl, hrest⟩ := List.append_inj htext heq
    rw [List.append_assoc, List.append_assoc] at hrest
    rcases (hshape.isRun halone hbody).eq_or_length_lt
      (hshape.isRun halone' hbody')
      (congrArg (before ++ lead ++ ·) (List.append_cancel_left hrest))
      (Nat.le_refl _) with ⟨_, rfl, rfl⟩ | hends
    · exact Or.inl ⟨rfl, rfl, rfl⟩
    · exact absurd hends (by omega)
  · have hends := hshape.length_le halone hbody halone' hbody' htext hlt
    have hbegins : before ++ (lead ++ body) <+: before' := by
      refine List.prefix_of_prefix_length_le
        ⟨after, (List.append_assoc _ _ _).trans htext⟩ ⟨_, rfl⟩ ?_
      rwa [List.length_append]
    obtain ⟨gap, rfl⟩ := hbegins
    refine Or.inr ⟨gap, List.append_assoc _ _ _, ?_⟩
    have hrest : before ++ (lead ++ body) ++ after =
        before ++ (lead ++ body) ++ (gap ++ (lead ++ body' ++ after')) := by
      rw [List.append_assoc, htext, List.append_assoc]
    exact List.append_cancel_left hrest

/-- What comes behind a word stands alone there as it does in the text. -/
theorem occurs_after_iff (hshape : LeadAndBody isWord lead IsBody)
    {before word gap word' after' : List Char}
    (hoccurs : Occurs isWord lead IsBody before word (gap ++ (word' ++ after'))) :
    Occurs isWord lead IsBody (before ++ (word ++ gap)) word' after' ↔
      Occurs isWord lead IsBody gap word' after' := by
  obtain ⟨halone, body, rfl, hbody⟩ := hoccurs
  rcases List.eq_nil_or_concat gap with rfl | ⟨gap, c, rfl⟩
  · -- a word would begin right behind the first one
    refine iff_of_false ?_ ?_
    · rintro ⟨halone', _⟩
      obtain ⟨c, hlast, hc⟩ := hshape.exists_last hbody
      have hseparator := halone'.left c (by
        rw [List.append_nil, List.getLast?_append, hlast]
        rfl)
      rw [hc] at hseparator
      cases hseparator
    · rintro ⟨_, body', rfl, hbody'⟩
      obtain ⟨c, rest, hhead, hc⟩ := hshape.exists_head hbody'
      have hseparator := halone.right c (by
        rw [List.nil_append, hhead]
        rfl)
      rw [hc] at hseparator
      cases hseparator
  · refine and_congr ?_ Iff.rfl
    rw [List.concat_eq_append, ← List.append_assoc, ← List.append_assoc]
    constructor
    · rintro ⟨hleft, hright⟩
      rw [List.getLast?_concat] at hleft
      exact ⟨by rwa [List.getLast?_concat], hright⟩
    · rintro ⟨hleft, hright⟩
      rw [List.getLast?_concat] at hleft
      exact ⟨by rwa [List.getLast?_concat], hright⟩

/-- The search with an expression between two ends of a word. -/
def finder (engine : RegexEngine) {group : Regex}
    (hshape : LeadAndBody isWord lead IsBody)
    (hgroup : ∀ before word after, group.Matches before word after ↔
      ∃ body, word = lead ++ body ∧ IsBody body) : Finder where
  find := engine.captures (GroupRegex.delimited isWord group)
  Occurs := Occurs isWord lead IsBody
  ne_nil := by
    rintro before word after ⟨_, body, rfl, hbody⟩
    obtain ⟨c, rest, hhead, _⟩ := hshape.exists_head hbody
    rw [hhead]
    exact List.cons_ne_nil c rest
  exists_of_find := by
    intro text span hspan
    obtain ⟨found, rfl, hleast⟩ := engine.exists_match_of_captures hspan
    refine ⟨found.before ++ found.left, found.word, found.right ++ found.after,
      found.text_eq.trans (List.append_assoc _ _ _).symm,
      ⟨found.standsAlone, (hgroup _ _ _).mp found.group_matches⟩, rfl, ?_⟩
    rintro before word after rfl ⟨halone, hword⟩
    obtain ⟨other, hbefore, hother, _⟩ :=
      GroupRegex.exists_match ((hgroup before word after).mpr hword) halone
    obtain ⟨body, hbody, hisBody⟩ := hword
    have hhead := hshape.exists_head hisBody
    rw [← hbody, ← hother] at hhead
    have hlength := found.length_le other hhead (hleast other)
    rwa [hbefore] at hlength
  find_ne_none := by
    rintro before word after ⟨halone, hword⟩
    obtain ⟨found, _⟩ :=
      GroupRegex.exists_match ((hgroup before word after).mpr hword) halone
    exact engine.captures_ne_none found
  eq_or_after := hshape.eq_or_after
  occurs_after_iff := hshape.occurs_after_iff

end LeadAndBody

end Gnostr
