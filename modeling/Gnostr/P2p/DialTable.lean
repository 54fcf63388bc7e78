/-
The Dials of the file exchange: the table of those that wait, against the attempts to
connect that were made for them.
-/
import Gnostr.P2p.EventLoop
import Mathlib.Logic.Function.Basic

namespace Gnostr

namespace P2p

section Results

/-- Who asked for an attempt to connect, and to which peer. -/
structure Dial where
  sender : Sender
  peer : PeerId
deriving DecidableEq

/-- The results that went to a sender of a Dial. -/
def resultsOf (sent : List Sent) (sender : Sender) : List DialResult :=
  sent.filterMap fun
    | .dial other result => if other = sender then some result else none
    | _ => none

end Results

section Dials

@[simp] theorem resultsOf_append (sent more : List Sent) (sender : Sender) :
    resultsOf (sent ++ more) sender = resultsOf sent sender ++ resultsOf more sender :=
  List.filterMap_append ..

theorem resultsOf_dial_self (sender : Sender) (result : DialResult) :
    resultsOf [.dial sender result] sender = [result] := by
  simp [resultsOf]

theorem resultsOf_dial_of_ne {sender other : Sender} (hne : other ≠ sender)
    (result : DialResult) : resultsOf [.dial other result] sender = [] := by
  simp [resultsOf, hne]

/-- The table of pending Dials against the attempts: it holds those that have not ended,
and results have gone to no one but who has dialed. -/
structure DialsSound (pending : Finmap fun _ : PeerId => Sender) (dials : ℕ → Option Dial)
    (resolved : ℕ → Option DialResult) (sent : List Sent) : Prop where
  pending_iff : ∀ peer sender, pending.lookup peer = some sender ↔
    ∃ connection, dials connection = some ⟨sender, peer⟩ ∧ resolved connection = none
  sender_inj : ∀ first second dial other, dials first = some dial →
    dials second = some other → dial.sender = other.sender → first = second
  known : ∀ sender, resultsOf sent sender ≠ [] →
    ∃ connection dial, dials connection = some dial ∧ dial.sender = sender
  answered : ∀ connection dial, dials connection = some dial →
    resultsOf sent dial.sender = (resolved connection).toList

variable {pending : Finmap fun _ : PeerId => Sender} {dials : ℕ → Option Dial}
  {resolved : ℕ → Option DialResult} {sent : List Sent} {connection : ℕ} {peer : PeerId}
  {sender : Sender}

/-- Sends that are no results of Dials leave the table sound. -/
theorem DialsSound.append (hsound : DialsSound pending dials resolved sent)
    {more : List Sent} (hmore : ∀ sender, resultsOf more sender = []) :
    DialsSound pending dials resolved (sent ++ more) where
  pending_iff := hsound.pending_iff
  sender_inj := hsound.sender_inj
  known sender hne := hsound.known sender (by rwa [resultsOf_append, hmore,
    List.append_nil] at hne)
  answered connection dial hdial := by
    rw [resultsOf_append, hmore, List.append_nil, hsound.answered connection dial hdial]

/-- An attempt that no command has asked for ends. -/
theorem DialsSound.resolve_other (hsound : DialsSound pending dials resolved sent)
    (hother : dials connection = none) (result : DialResult) :
    DialsSound pending dials (Function.update resolved connection (some result)) sent := by
  have hsame : ∀ own dial, dials own = some dial →
      Function.update resolved connection (some result) own = resolved own := by
    intro own dial hdial
    refine Function.update_of_ne (fun heq => ?_) _ _
    rw [heq, hother] at hdial
    cases hdial
  refine ⟨fun peer sender => ?_, hsound.sender_inj, hsound.known, ?_⟩
  · rw [hsound.pending_iff]
    refine exists_congr fun own => and_congr_right fun hdial => ?_
    rw [hsame own _ hdial]
  · intro own dial hdial
    rw [hsame own dial hdial, hsound.answered own dial hdial]

/-- The attempt of a pending Dial ends, and its sender gets the result. -/
theorem DialsSound.resolve_own (hsound : DialsSound pending dials resolved sent)
    (hown : dials connection = some ⟨sender, peer⟩)
    (hopen : resolved connection = none) (result : DialResult) :
    DialsSound (pending.erase peer) dials
      (Function.update resolved connection (some result))
      (sent ++ [.dial sender result]) := by
  have hpending := (hsound.pending_iff peer sender).mpr ⟨connection, hown, hopen⟩
  constructor
  · intro other otherSender
    by_cases hpeer : other = peer
    · subst hpeer
      rw [Finmap.lookup_erase]
      refine iff_of_false nofun ?_
      rintro ⟨own, hdial, hresolved⟩
      have hne : own ≠ connection := by
        rintro rfl
        rw [Function.update_self] at hresolved
        cases hresolved
      rw [Function.update_of_ne hne] at hresolved
      have hagain := (hsound.pending_iff other otherSender).mpr ⟨own, hdial, hresolved⟩
      rw [hpending, Option.some.injEq] at hagain
      exact hne (hsound.sender_inj own connection _ _ hdial hown hagain.symm)
    · rw [Finmap.lookup_erase_ne hpeer, hsound.pending_iff]
      refine exists_congr fun own => and_congr_right fun hdial => ?_
      have hne : own ≠ connection := by
        rintro rfl
        rw [hown] at hdial
        exact hpeer (congrArg Dial.peer (Option.some.inj hdial)).symm
      rw [Function.update_of_ne hne]
  · exact hsound.sender_inj
  · intro other hne
    by_cases hsender : sender = other
    · exact ⟨connection, _, hown, hsender⟩
    · rw [resultsOf_append, resultsOf_dial_of_ne hsender, List.append_nil] at hne
      exact hsound.known other hne
  · intro own dial hdial
    by_cases hconnection : own = connection
    · subst hconnection
      obtain rfl := Option.some.inj (hown.symm.trans hdial)
      rw [Function.update_self, resultsOf_append, hsound.answered own _ hdial, hopen,
        resultsOf_dial_self]
      rfl
    · have hsender : sender ≠ dial.sender := fun heq =>
        hconnection (hsound.sender_inj own connection _ _ hdial hown heq.symm)
      rw [Function.update_of_ne hconnection, resultsOf_append, resultsOf_dial_of_ne hsender,
        List.append_nil, hsound.answered own dial hdial]

theorem DialsSound.resultsOf_eq_nil (hsound : DialsSound pending dials resolved sent)
    (hnew : ∀ other dial, dials other = some dial → dial.sender ≠ sender) :
    resultsOf sent sender = [] := by
  by_contra hne
  obtain ⟨other, dial, hdial, hsender⟩ := hsound.known sender hne
  exact hnew other dial hdial hsender

/-- A Dial to a peer that is not pending is entered. -/
theorem DialsSound.ask (hsound : DialsSound pending dials resolved sent)
    (hpeer : peer ∉ pending) (hdials : dials connection = none)
    (hresolved : resolved connection = none)
    (hnew : ∀ other dial, dials other = some dial → dial.sender ≠ sender) :
    DialsSound (pending.insert peer sender)
      (Function.update dials connection (some ⟨sender, peer⟩)) resolved sent := by
  have hkeep : ∀ own dial, dials own = some dial → own ≠ connection := by
    rintro own dial hdial rfl
    rw [hdials] at hdial
    cases hdial
  constructor
  · intro other otherSender
    by_cases hother : other = peer
    · subst hother
      rw [Finmap.lookup_insert, Option.some.injEq]
      constructor
      · rintro rfl
        exact ⟨connection, Function.update_self .., hresolved⟩
      · rintro ⟨own, hdial, hopen⟩
        by_cases hown : own = connection
        · rw [hown, Function.update_self] at hdial
          exact congrArg Dial.sender (Option.some.inj hdial)
        · rw [Function.update_of_ne hown] at hdial
          have hpending := (hsound.pending_iff other otherSender).mpr ⟨own, hdial, hopen⟩
          exact absurd (Finmap.mem_of_lookup_eq_some hpending) hpeer
    · rw [Finmap.lookup_insert_of_ne _ hother, hsound.pending_iff]
      refine exists_congr fun own => and_congr_left fun _ => ?_
      by_cases hown : own = connection
      · rw [hown, hdials, Function.update_self]
        refine iff_of_false nofun fun heq => hother ?_
        exact (congrArg Dial.peer (Option.some.inj heq)).symm
      · rw [Function.update_of_ne hown]
  · intro first second dial other hfirst hsecond hsame
    by_cases hf : first = connection
    · by_cases hs : second = connection
      · exact hf.trans hs.symm
      · rw [hf, Function.update_self, Option.some.injEq] at hfirst
        rw [Function.update_of_ne hs] at hsecond
        exact absurd (hsame.symm.trans (congrArg Dial.sender hfirst).symm)
          (hnew second other hsecond)
    · rw [Function.update_of_ne hf] at hfirst
      by_cases hs : second = connection
      · rw [hs, Function.update_self, Option.some.injEq] at hsecond
        exact absurd (hsame.trans (congrArg Dial.sender hsecond).symm)
          (hnew first dial hfirst)
      · rw [Function.update_of_ne hs] at hsecond
        exact hsound.sender_inj first second dial other hfirst hsecond hsame
  · intro other hne
    obtain ⟨own, dial, hdial, hsender⟩ := hsound.known other hne
    exact ⟨own, dial, by rwa [Function.update_of_ne (hkeep own dial hdial)], hsender⟩
  · intro own dial hdial
    by_cases hown : own = connection
    · rw [hown, Function.update_self, Option.some.injEq] at hdial
      rw [hown, hresolved, ← hdial, hsound.resultsOf_eq_nil hnew]
      rfl
    · rw [Function.update_of_ne hown] at hdial
      exact hsound.answered own dial hdial

/-- A Dial that the swarm refuses is one whose attempt has ended. -/
theorem DialsSound.refuse (hsound : DialsSound pending dials resolved sent)
    (hpeer : peer ∉ pending) (hdials : dials connection = none)
    (hresolved : resolved connection = none)
    (hnew : ∀ other dial, dials other = some dial → dial.sender ≠ sender)
    (result : DialResult) :
    DialsSound pending (Function.update dials connection (some ⟨sender, peer⟩))
      (Function.update resolved connection (some result))
      (sent ++ [.dial sender result]) := by
  have hasked := hsound.ask hpeer hdials hresolved hnew
  have hended := hasked.resolve_own (Function.update_self ..) hresolved result
  have hpending : (pending.insert peer sender).erase peer = pending := by
    apply Finmap.ext_lookup
    intro other
    by_cases hother : other = peer
    · rw [hother, Finmap.lookup_erase, Finmap.lookup_eq_none.mpr hpeer]
    · rw [Finmap.lookup_erase_ne hother, Finmap.lookup_insert_of_ne _ hother]
  rwa [hpending] at hended

end Dials

end P2p

end Gnostr
