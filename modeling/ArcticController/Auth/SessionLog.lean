/-
Web sessions as their history has it, and the table that holds them.

* `SessionEvent`, `Kills`, `Live`: what happens to sessions, what ends one, and the
  sessions a history leaves; `lastUse`: when one was used last;
* `Represents`: a table whose active slots are exactly the live sessions, one slot each;
* `Represents.login`, `Represents.validate`, `Represents.logout`, `Represents.clear`,
  `Represents.reboot`: every change of the table follows the history;
* `Evicts`: whom a login evicts.
-/
import ArcticController.Auth.AuthCalls

namespace ArcticController

/-! ### The history -/

/-- What happens to sessions. A login says whom it evicted, a validation what it
answered from two readings of the clock. -/
inductive SessionEvent where
  | loggedIn (token : List UInt8) (now : Int64) (evicted : Option Digest)
  | validated (token : List UInt8) (now now' : Int64) (ok : Bool)
  | loggedOut (token : List UInt8)
  | loggedOutAll
  | credentialsChanged
  | rebooted

/-- A session created then is too old now. -/
def TooOld (created now : Int64) : Prop := authSessionLifetimeSec < now.toInt - created.toInt

/-- An event that ends the session of a token. -/
def Kills (sha : List UInt8 → Digest) (token : List UInt8) (created : Int64) : SessionEvent → Prop
  | .loggedIn _ _ evicted => evicted = some (sha token)
  | .validated token' now _ _ => token' = token ∧ TooOld created now
  | .loggedOut token' => token' = token
  | .loggedOutAll | .credentialsChanged => True
  | .rebooted => False

/-- A session was opened and nothing has ended it since. -/
def Live (sha : List UInt8 → Digest) (log : List SessionEvent) (token : List UInt8)
    (created : Int64) : Prop :=
  ∃ pre evicted post, log = pre ++ .loggedIn token created evicted :: post ∧
    ∀ event ∈ post, ¬ Kills sha token created event

/-- The last use of a session after an event. A reboot forgets it. -/
def useStep (token : List UInt8) (created used : Int64) : SessionEvent → Int64
  | .loggedIn token' now _ => if token' = token then now else used
  | .validated token' _ now' ok => if token' = token ∧ ok = true then now' else used
  | .rebooted => created
  | .loggedOut _ | .loggedOutAll | .credentialsChanged => used

/-- When the session of a token was used last. -/
def lastUse (log : List SessionEvent) (token : List UInt8) (created : Int64) : Int64 :=
  log.foldl (useStep token created) created

/-- The token an event issues. -/
def SessionEvent.issued : SessionEvent → Option (List UInt8)
  | .loggedIn token _ _ => some token
  | _ => none

def issuedTokens (log : List SessionEvent) : List (List UInt8) := log.filterMap SessionEvent.issued

section History

variable {sha : List UInt8 → Digest} {log : List SessionEvent} {event : SessionEvent}
  {token : List UInt8} {created created' : Int64}

/-- The live sessions after one more event. -/
lemma live_append : Live sha (log ++ [event]) token created ↔
    (Live sha log token created ∧ ¬ Kills sha token created event) ∨
      ∃ evicted, event = .loggedIn token created evicted := by
  constructor
  · rintro ⟨pre, evicted, post, hsplit, hpost⟩
    rcases List.eq_nil_or_concat post with rfl | ⟨post, last, rfl⟩
    · obtain ⟨-, hevent⟩ := List.append_inj' hsplit rfl
      exact .inr ⟨evicted, List.head_eq_of_cons_eq hevent⟩
    · rw [List.concat_eq_append, ← List.cons_append, ← List.append_assoc] at hsplit
      obtain ⟨rfl, hlast⟩ := List.append_inj' hsplit rfl
      obtain rfl := List.head_eq_of_cons_eq hlast
      exact .inl ⟨⟨pre, evicted, post, rfl, fun event hmem => hpost event (by simp [hmem])⟩,
        hpost event (by simp)⟩
  · rintro (⟨⟨pre, evicted, post, rfl, hpost⟩, hevent⟩ | ⟨evicted, rfl⟩)
    · refine ⟨pre, evicted, post ++ [event], by simp, fun event' hmem => ?_⟩
      rcases List.mem_append.mp hmem with hmem | hmem
      · exact hpost event' hmem
      · exact List.mem_singleton.mp hmem ▸ hevent
    · exact ⟨log, evicted, [], rfl, fun _ h => absurd h List.not_mem_nil⟩

lemma lastUse_append : lastUse (log ++ [event]) token created
    = useStep token created (lastUse log token created) event := by
  rw [lastUse, lastUse, List.foldl_append]
  rfl

lemma Live.mem_issued (h : Live sha log token created) : token ∈ issuedTokens log := by
  obtain ⟨pre, evicted, post, rfl, -⟩ := h
  exact List.mem_filterMap.mpr ⟨_, List.mem_append_right _ List.mem_cons_self, rfl⟩

lemma issuedTokens_append : issuedTokens (log ++ [event])
    = issuedTokens log ++ event.issued.toList := by
  rw [issuedTokens, issuedTokens, List.filterMap_append]
  cases h : event.issued <;> simp [h]

/-- A token issued once has one session. -/
lemma Live.created_eq (hnodup : (issuedTokens log).Nodup) (h : Live sha log token created)
    (h' : Live sha log token created') : created = created' := by
  induction log using List.reverseRecOn with
  | nil =>
      obtain ⟨pre, evicted, post, hsplit, -⟩ := h
      cases (List.append_eq_nil_iff.mp hsplit.symm).2
  | append_singleton log event ih =>
      rw [issuedTokens_append, List.nodup_append] at hnodup
      obtain ⟨hlog, -, hdisjoint⟩ := hnodup
      have hfresh : ∀ {token created evicted}, event = .loggedIn token created evicted →
          ∀ created', ¬ Live sha log token created' := by
        rintro token created evicted rfl created' hlive
        exact hdisjoint _ hlive.mem_issued _ (List.mem_singleton_self _) rfl
      rcases live_append.mp h with ⟨h, -⟩ | ⟨evicted, hevent⟩
      · rcases live_append.mp h' with ⟨h', -⟩ | ⟨evicted', hevent'⟩
        · exact ih hlog h h'
        · exact absurd h (hfresh hevent' _)
      · rcases live_append.mp h' with ⟨h', -⟩ | ⟨evicted', hevent'⟩
        · exact absurd h' (hfresh hevent _)
        · cases hevent.symm.trans hevent'
          rfl

end History

/-! ### The table -/

/-- The active slots are exactly the live sessions, one slot each, and know their last
use. -/
structure Represents (sha : List UInt8 → Digest) (log : List SessionEvent) (sessions : Sessions) :
    Prop where
  lengths : ∀ token ∈ issuedTokens log, token.length = authSessionTokenLen
  distinct : ∀ i j, (sessions i).active → (sessions j).active →
    (sessions i).tokenHash = (sessions j).tokenHash → i = j
  sound : ∀ i, (sessions i).active → ∃ token, Live sha log token (sessions i).createdAt ∧
    (sessions i).tokenHash = sha token ∧
    (sessions i).lastUsed = lastUse log token (sessions i).createdAt
  complete : ∀ token created, Live sha log token created →
    ∃ i, (sessions i).active ∧ (sessions i).tokenHash = sha token

/-- The digest evicted by a login: of the slot unused for longest, if none is free. -/
def evictedBy (sessions : Sessions) : Option Digest :=
  match (List.finRange authMaxSessions).find? fun i => !(sessions i).active with
  | some _ => none
  | none => some (sessions (oldestSession sessions)).tokenHash

section Table

variable {sha : List UInt8 → Digest} {log : List SessionEvent} {sessions : Sessions}

variable {token : List UInt8} {i : Fin authMaxSessions} {event : SessionEvent}

/-- The slot of a live session is the one that was opened with it. -/
lemma Represents.slot (h : Represents sha log sessions) (hnodup : (issuedTokens log).Nodup)
    (hinj : Set.InjOn sha {token | token.length = authSessionTokenLen}) {created : Int64}
    (hlive : Live sha log token created) :
    ∃ i, (sessions i).active ∧ (sessions i).tokenHash = sha token ∧ (sessions i).createdAt = created ∧
      (sessions i).lastUsed = lastUse log token created := by
  obtain ⟨i, hactive, hdigest⟩ := h.complete token created hlive
  obtain ⟨token', hlive', hdigest', hused⟩ := h.sound i hactive
  obtain rfl : token' = token := hinj (h.lengths _ hlive'.mem_issued) (h.lengths _ hlive.mem_issued)
    (hdigest'.symm.trans hdigest)
  obtain rfl := hlive'.created_eq hnodup hlive
  exact ⟨i, hactive, hdigest, rfl, hused⟩

/-- The token of an active slot. -/
lemma Represents.token_of_digest (h : Represents sha log sessions)
    (hinj : Set.InjOn sha {token | token.length = authSessionTokenLen})
    (hactive : (sessions i).active) (hlen : token.length = authSessionTokenLen)
    (hdigest : (sessions i).tokenHash = sha token) :
    Live sha log token (sessions i).createdAt ∧
      (sessions i).lastUsed = lastUse log token (sessions i).createdAt := by
  obtain ⟨token', hlive, hdigest', hused⟩ := h.sound i hactive
  obtain rfl : token' = token :=
    hinj (h.lengths _ hlive.mem_issued) hlen (hdigest'.symm.trans hdigest)
  exact ⟨hlive, hused⟩

/-- The table after a change: slots that stay carry on, and the sessions of the others
ended. -/
lemma Represents.of_kept {sessions' : Sessions} (h : Represents sha log sessions)
    (hissued : event.issued = none)
    (hkept : ∀ i, (sessions' i).active → (sessions i).active ∧
      (sessions' i).tokenHash = (sessions i).tokenHash ∧
      (sessions' i).createdAt = (sessions i).createdAt ∧
      ∀ token, (sessions i).tokenHash = sha token → Live sha log token (sessions i).createdAt →
      (sessions i).lastUsed = lastUse log token (sessions i).createdAt →
      ¬ Kills sha token (sessions i).createdAt event ∧
      (sessions' i).lastUsed = lastUse (log ++ [event]) token (sessions i).createdAt)
    (hended : ∀ i token created, (sessions i).active → ¬ (sessions' i).active →
      (sessions i).tokenHash = sha token → Live sha log token created →
      Kills sha token created event) :
    Represents sha (log ++ [event]) sessions' := by
  have hno : ∀ token created evicted, event ≠ .loggedIn token created evicted := by
    rintro token created evicted rfl
    cases hissued
  refine ⟨?_, ?_, ?_, ?_⟩
  · rw [issuedTokens_append, hissued, Option.toList_none, List.append_nil]
    exact h.lengths
  · intro i j hi hj heq
    obtain ⟨hi, hdi, -⟩ := hkept i hi
    obtain ⟨hj, hdj, -⟩ := hkept j hj
    exact h.distinct i j hi hj (hdi.symm.trans (heq.trans hdj))
  · intro i hi
    obtain ⟨hactive, hdigest, hcreated, hused⟩ := hkept i hi
    obtain ⟨token, hlive, htoken, hlast⟩ := h.sound i hactive
    obtain ⟨hkills, hlast'⟩ := hused token htoken hlive hlast
    refine ⟨token, ?_, hdigest.trans htoken, ?_⟩
    · rw [hcreated]
      exact live_append.mpr (.inl ⟨hlive, hkills⟩)
    · rw [hcreated]
      exact hlast'
  · intro token created hlive
    rcases live_append.mp hlive with ⟨hlive, hkills⟩ | ⟨evicted, hevent⟩
    · obtain ⟨i, hactive, hdigest⟩ := h.complete token created hlive
      by_cases hi : (sessions' i).active
      · exact ⟨i, hi, (hkept i hi).2.1.trans hdigest⟩
      · exact absurd (hended i token created hactive hi hdigest hlive) hkills
    · exact absurd hevent (hno _ _ _)

/-- An event that is about no session of the table leaves it. -/
lemma Represents.unchanged (h : Represents sha log sessions) (hissued : event.issued = none)
    (hnot : ∀ token created, Live sha log token created → ¬ Kills sha token created event ∧
      ∀ used, useStep token created used event = used) :
    Represents sha (log ++ [event]) sessions := by
  refine h.of_kept hissued (fun i hi => ⟨hi, rfl, rfl, fun token _ hlive hlast => ?_⟩)
    fun i token created hi hnoti => absurd hi hnoti
  obtain ⟨hkills, huse⟩ := hnot token _ hlive
  rw [lastUse_append, huse]
  exact ⟨hkills, hlast⟩

/-- Every session ended. -/
lemma Represents.clear (h : Represents sha log sessions) (hissued : event.issued = none)
    (hkills : ∀ token created, Kills sha token created event) :
    Represents sha (log ++ [event]) (endAll sessions) :=
  h.of_kept hissued nofun fun _ token created _ _ _ _ => hkills token created

/-- The session of one token ended. -/
lemma Represents.endSlot (h : Represents sha log sessions) (hissued : event.issued = none)
    (hinj : Set.InjOn sha {token | token.length = authSessionTokenLen})
    (hactive : (sessions i).active) (hlen : token.length = authSessionTokenLen)
    (hdigest : (sessions i).tokenHash = sha token)
    (hkills : ∀ token' created, Live sha log token' created →
      (Kills sha token' created event ↔ token' = token))
    (huse : ∀ token' created used, token' ≠ token → useStep token' created used event = used) :
    Represents sha (log ++ [event])
      (Function.update sessions i (endSession (sessions i))) := by
  refine h.of_kept hissued (fun j hj => ?_) fun j token' created hj hnotj hdigest' hlive => ?_
  · have hne : j ≠ i := by
      rintro rfl
      rw [Function.update_self] at hj
      cases hj
    rw [Function.update_of_ne hne] at hj ⊢
    refine ⟨hj, rfl, rfl, fun token' hdigest' hlive hlast => ?_⟩
    have htoken : token' ≠ token := by
      rintro rfl
      exact hne (h.distinct j i hj hactive (hdigest'.trans hdigest.symm))
    rw [lastUse_append, huse token' _ _ htoken]
    exact ⟨fun hk => htoken ((hkills _ _ hlive).mp hk), hlast⟩
  · rcases eq_or_ne j i with rfl | hne
    · refine (hkills token' created hlive).mpr ?_
      exact hinj (h.lengths _ hlive.mem_issued) hlen (hdigest'.symm.trans hdigest)
    · rw [Function.update_of_ne hne] at hnotj
      exact absurd hj hnotj

/-- The digest of every string can be computed. -/
def hashed (sha : List UInt8 → Digest) (string : List UInt8) : Option Digest := some (sha string)

lemma findSession_hashed (h : findSession (hashed sha) sessions (some token) = some i) :
    token.length = authSessionTokenLen ∧ (sessions i).active ∧ (sessions i).tokenHash = sha token := by
  obtain ⟨string, digest, hstring, hlen, hdigest, hactive, heq⟩ := findSession_eq_some h
  cases hstring
  cases hdigest
  exact ⟨hlen, hactive, heq⟩

/-- A token that is not found has no session. -/
lemma Represents.not_live (h : Represents sha log sessions)
    (hnone : findSession (hashed sha) sessions (some token) = none) (created : Int64) :
    ¬ Live sha log token created := by
  intro hlive
  obtain ⟨i, hactive, hdigest⟩ := h.complete token created hlive
  have hsome := @findSession_of_active (hashed sha) _ _ _ _ (h.lengths _ hlive.mem_issued) rfl hactive
    hdigest
  rw [hnone] at hsome
  cases hsome

lemma isSessionExpired_iff {session : Session} {now : Int64} (hactive : session.active) :
    isSessionExpired session now = true ↔ TooOld session.createdAt now := by
  rw [isSessionExpired, hactive, Bool.not_true, Bool.false_or, decide_eq_true_eq, TooOld]

variable (hinj : Set.InjOn sha {token | token.length = authSessionTokenLen})
  (hnodup : (issuedTokens log).Nodup)

include hinj hnodup

/-- A validation accepts the tokens of live sessions that are not too old. -/
lemma Represents.valid_iff (h : Represents sha log sessions) (token : List UInt8) (now : Int64) :
    sessionValid (hashed sha) sessions (some token) now = true ↔
      ∃ created, Live sha log token created ∧ ¬ TooOld created now := by
  rw [sessionValid]
  cases hfound : findSession (hashed sha) sessions (some token) with
  | none =>
      refine ⟨by rintro ⟨⟩, ?_⟩
      rintro ⟨created, hlive, -⟩
      exact absurd hlive (h.not_live hfound created)
  | some i =>
      obtain ⟨hlen, hactive, hdigest⟩ := findSession_hashed hfound
      obtain ⟨hlive, -⟩ := h.token_of_digest hinj hactive hlen hdigest
      dsimp only
      rw [Bool.not_eq_true', ← Bool.not_eq_true, isSessionExpired_iff hactive]
      constructor
      · exact fun hyoung => ⟨_, hlive, hyoung⟩
      · rintro ⟨created, hlive', hyoung⟩
        rwa [hlive.created_eq hnodup hlive']

/-- The table after a validation. -/
lemma Represents.validate (h : Represents sha log sessions) (token : List UInt8)
    (now now' : Int64) :
    Represents sha
      (log ++ [.validated token now now' (sessionValid (hashed sha) sessions (some token) now)])
      (validated (hashed sha) sessions (some token) now now') := by
  rw [sessionValid, validated]
  cases hfound : findSession (hashed sha) sessions (some token) with
  | none =>
      refine h.unchanged rfl fun token' created hlive => ⟨?_, fun used => ?_⟩
      · rintro ⟨rfl, -⟩
        exact h.not_live hfound created hlive
      · exact if_neg fun hand => Bool.false_ne_true hand.2
  | some i =>
      obtain ⟨hlen, hactive, hdigest⟩ := findSession_hashed hfound
      obtain ⟨hlive, hlast⟩ := h.token_of_digest hinj hactive hlen hdigest
      dsimp only
      by_cases hexp : isSessionExpired (sessions i) now
      · rw [if_pos hexp, hexp]
        have hold := (isSessionExpired_iff hactive).mp hexp
        refine h.endSlot rfl hinj hactive hlen hdigest (fun token' created hlive' => ?_)
          fun token' _ _ _ => if_neg fun hand => Bool.false_ne_true hand.2
        constructor
        · exact fun hkills => hkills.1.symm
        · rintro rfl
          exact ⟨rfl, hlive.created_eq hnodup hlive' ▸ hold⟩
      · rw [if_neg hexp, Bool.eq_false_of_not_eq_true hexp, Bool.not_false]
        have hyoung : ¬ TooOld (sessions i).createdAt now :=
          fun hold => hexp ((isSessionExpired_iff hactive).mpr hold)
        refine h.of_kept rfl (fun j hj => ?_) fun j token' created hj hnotj => ?_
        · rcases eq_or_ne j i with rfl | hne
          · rw [Function.update_self]
            refine ⟨hactive, rfl, rfl, fun token' hdigest' hlive' hlast' => ?_⟩
            obtain rfl : token' = token := hinj (h.lengths _ hlive'.mem_issued) hlen
              (hdigest'.symm.trans hdigest)
            refine ⟨fun hkills => hyoung hkills.2, ?_⟩
            rw [lastUse_append]
            exact (if_pos ⟨rfl, rfl⟩).symm
          · rw [Function.update_of_ne hne] at hj ⊢
            refine ⟨hj, rfl, rfl, fun token' hdigest' hlive' hlast' => ?_⟩
            have htoken : token ≠ token' := by
              rintro rfl
              exact hne (h.distinct j i hj hactive (hdigest'.trans hdigest.symm))
            refine ⟨fun hkills => htoken hkills.1, ?_⟩
            rw [lastUse_append]
            exact hlast'.trans (if_neg fun hand => htoken hand.1).symm
        · refine absurd ?_ hnotj
          rcases eq_or_ne j i with rfl | hne
          · rwa [Function.update_self]
          · rwa [Function.update_of_ne hne]

omit hnodup in
/-- The table after a logout. -/
lemma Represents.logout (h : Represents sha log sessions) (token : List UInt8) :
    Represents sha (log ++ [.loggedOut token])
      (ArcticController.loggedOut (hashed sha) sessions (some token)) := by
  rw [ArcticController.loggedOut]
  cases hfound : findSession (hashed sha) sessions (some token) with
  | none =>
      refine h.unchanged rfl fun token' created hlive => ⟨?_, fun used => rfl⟩
      rintro rfl
      exact h.not_live hfound created hlive
  | some i =>
      obtain ⟨hlen, hactive, hdigest⟩ := findSession_hashed hfound
      exact h.endSlot rfl hinj hactive hlen hdigest (fun token' created _ => eq_comm)
        fun token' _ _ _ => rfl

end Table

/-! ### A reboot -/

section Reboot

variable {sha : List UInt8 → Digest} {log : List SessionEvent} {sessions : Sessions}

/-- The digests of a table without doubles are saved without doubles. -/
lemma nodup_activeSessions (h : ∀ i j, (sessions i).active → (sessions j).active →
    (sessions i).tokenHash = (sessions j).tokenHash → i = j) :
    ((activeSessions sessions).map Prod.snd).Nodup := by
  have hpairs : (List.ofFn sessions).Pairwise fun s s' =>
      s.active → s'.active → s.tokenHash ≠ s'.tokenHash := by
    rw [List.pairwise_ofFn]
    intro i j hlt hi hj heq
    exact hlt.ne (h i j hi hj heq)
  rw [activeSessions, List.map_map, List.Nodup, List.pairwise_map, List.pairwise_filter]
  exact hpairs.imp fun hne hs hs' => hne hs hs'

lemma restoreSessions_active {saved : List (Int64 × Digest)} {i : Fin authMaxSessions} :
    (restoreSessions (fun _ => {}) saved i).active = true ↔
      ∃ p, saved[(i : ℕ)]? = some p ∧ restoreSessions (fun _ => {}) saved i = restoredSession p := by
  rw [restoreSessions]
  cases saved[(i : ℕ)]? with
  | none => exact ⟨nofun, fun ⟨p, hp, _⟩ => nomatch hp⟩
  | some p => exact ⟨fun _ => ⟨p, rfl, rfl⟩, fun _ => rfl⟩

/-- The table after a reboot: the saved sessions, last used when they were created. -/
lemma Represents.reboot (h : Represents sha log sessions) :
    Represents sha (log ++ [.rebooted])
      (restoreSessions (fun _ => {}) (activeSessions sessions)) := by
  refine ⟨?_, ?_, ?_, ?_⟩
  · rw [issuedTokens_append]
    simpa [SessionEvent.issued] using h.lengths
  · intro i j hi hj heq
    obtain ⟨p, hp, hi⟩ := restoreSessions_active.mp hi
    obtain ⟨q, hq, hj⟩ := restoreSessions_active.mp hj
    rw [hi, hj] at heq
    obtain ⟨hlti, hp⟩ := List.getElem?_eq_some_iff.mp hp
    obtain ⟨hltj, hq⟩ := List.getElem?_eq_some_iff.mp hq
    have hnodup := nodup_activeSessions h.distinct
    have hlti' : (i : ℕ) < ((activeSessions sessions).map Prod.snd).length := by simpa using hlti
    have hltj' : (j : ℕ) < ((activeSessions sessions).map Prod.snd).length := by simpa using hltj
    refine Fin.ext ((@List.Nodup.getElem_inj_iff _ _ hnodup _ hlti' _ hltj').mp ?_)
    rw [List.getElem_map, List.getElem_map, hp, hq]
    exact heq
  · intro i hi
    obtain ⟨p, hp, hi⟩ := restoreSessions_active.mp hi
    obtain ⟨j, hactive, rfl⟩ := mem_activeSessions.mp (List.mem_of_getElem? hp)
    obtain ⟨token, hlive, hdigest, -⟩ := h.sound j hactive
    rw [hi]
    refine ⟨token, live_append.mpr (.inl ⟨hlive, fun h => h⟩), hdigest, ?_⟩
    rw [lastUse_append]
    rfl
  · intro token created hlive
    rcases live_append.mp hlive with ⟨hlive, -⟩ | ⟨evicted, hevent⟩
    · obtain ⟨j, hactive, hdigest⟩ := h.complete token created hlive
      obtain ⟨n, hlt, hn⟩ := List.getElem_of_mem (mem_activeSessions.mpr ⟨j, hactive, rfl⟩)
      have hslot : restoreSessions (fun _ => {}) (activeSessions sessions)
          ⟨n, lt_of_lt_of_le hlt (length_activeSessions_le sessions)⟩
          = restoredSession ((sessions j).createdAt, (sessions j).tokenHash) := by
        rw [restoreSessions, List.getElem?_eq_getElem hlt, hn]
        rfl
      refine ⟨_, by rw [hslot]; rfl, ?_⟩
      rw [hslot]
      exact hdigest
    · cases hevent

/-- What is saved of a restored table is what it was restored from. -/
lemma activeSessions_restoreSessions {saved : List (Int64 × Digest)}
    (hlen : saved.length ≤ authMaxSessions) :
    activeSessions (restoreSessions (fun _ => {}) saved) = saved := by
  have htable : List.ofFn (restoreSessions (fun _ => {}) saved)
      = saved.map restoredSession
        ++ List.replicate (authMaxSessions - saved.length) ({ } : Session) := by
    refine List.ext_getElem (by simp; omega) fun i hi _ => ?_
    rw [List.getElem_ofFn, restoreSessions]
    by_cases hin : i < saved.length
    · rw [List.getElem_append_left (by simpa using hin), List.getElem_map]
      simp [List.getElem?_eq_getElem hin]
    · rw [List.getElem_append_right (by simpa using hin), List.getElem_replicate]
      simp [List.getElem?_eq_none (not_lt.mp hin)]
  have hsaved : (saved.map restoredSession).filter (·.active) = saved.map restoredSession :=
    List.filter_eq_self.mpr fun s hs => by
      obtain ⟨p, -, rfl⟩ := List.mem_map.mp hs
      rfl
  have hrest : (List.replicate (authMaxSessions - saved.length) ({} : Session)).filter (·.active) = [] :=
    List.filter_eq_nil_iff.mpr fun s hs => by
      rw [List.eq_of_mem_replicate hs]
      exact Bool.false_ne_true
  have hmap : ((saved.map restoredSession).map fun s => (s.createdAt, s.tokenHash)) = saved := by
    rw [List.map_map]
    exact List.map_id saved
  calc activeSessions (restoreSessions (fun _ => {}) saved)
      = ((List.ofFn (restoreSessions (fun _ => {}) saved)).filter (·.active)).map
          fun s => (s.createdAt, s.tokenHash) := rfl
    _ = saved := by rw [htable, List.filter_append, hsaved, hrest, List.append_nil, hmap]

end Reboot

/-! ### A login -/

/-- The tokens with a live session. -/
def liveTokens (sha : List UInt8 → Digest) (log : List SessionEvent) : Set (List UInt8) :=
  {token | ∃ created, Live sha log token created}

/-- A login evicts nobody while there is room, and else the session unused for longest. -/
def Evicts (sha : List UInt8 → Digest) (log : List SessionEvent) : Option Digest → Prop
  | none => (liveTokens sha log).ncard < authMaxSessions
  | some digest => (liveTokens sha log).ncard = authMaxSessions ∧
      ∃ token created, Live sha log token created ∧ sha token = digest ∧
        ∀ token' created', Live sha log token' created' →
          (lastUse log token created).toInt ≤ (lastUse log token' created').toInt

section Login

variable {sha : List UInt8 → Digest} {log : List SessionEvent} {sessions : Sessions}

/-- The loop over the slots keeps the one unused for longest. -/
lemma foldl_oldest_le (sessions : Sessions) : ∀ (l : List (Fin authMaxSessions))
    (oldest : Fin authMaxSessions), ∀ j ∈ oldest :: l,
      (sessions (l.foldl (fun oldest i =>
        if (sessions i).lastUsed < (sessions oldest).lastUsed then i else oldest) oldest)).lastUsed.toInt
        ≤ (sessions j).lastUsed.toInt := by
  intro l
  induction l with
  | nil =>
      intro oldest j hj
      rw [List.mem_singleton.mp hj]
      exact le_refl _
  | cons i l ih =>
      intro oldest j hj
      rw [List.foldl_cons]
      by_cases hlt : (sessions i).lastUsed < (sessions oldest).lastUsed
      · rw [if_pos hlt]
        rcases List.mem_cons.mp hj with rfl | hj
        · exact (ih i i List.mem_cons_self).trans (Int64.lt_iff_toInt_lt.mp hlt).le
        · exact ih i j hj
      · rw [if_neg hlt]
        rcases List.mem_cons.mp hj with rfl | hj
        · exact ih j j List.mem_cons_self
        · rcases List.mem_cons.mp hj with rfl | hj
          · refine (ih oldest oldest List.mem_cons_self).trans ?_
            exact not_lt.mp fun h => hlt (Int64.lt_iff_toInt_lt.mpr h)
          · exact ih oldest j (List.mem_cons_of_mem _ hj)

lemma oldestSession_le (sessions : Sessions) (j : Fin authMaxSessions) :
    (sessions (oldestSession sessions)).lastUsed.toInt ≤ (sessions j).lastUsed.toInt :=
  foldl_oldest_le sessions _ _ j (List.mem_cons_of_mem _ (List.mem_finRange j))

/-- The slot of a login is free, or every slot is taken and it is the oldest. -/
lemma findFreeSession_cases (sessions : Sessions) :
    (¬ (sessions (findFreeSession sessions)).active ∧ evictedBy sessions = none) ∨
      ((∀ i, (sessions i).active) ∧ findFreeSession sessions = oldestSession sessions ∧
        evictedBy sessions = some (sessions (findFreeSession sessions)).tokenHash) := by
  rw [evictedBy, findFreeSession]
  cases hfree : (List.finRange authMaxSessions).find? fun i => !(sessions i).active with
  | some i =>
      have hi := List.find?_some hfree
      exact .inl ⟨by simpa using hi, rfl⟩
  | none =>
      refine .inr ⟨fun i => ?_, rfl, rfl⟩
      simpa using List.find?_eq_none.mp hfree i (List.mem_finRange i)

variable (hinj : Set.InjOn sha {token | token.length = authSessionTokenLen})

include hinj

/-- The table after a login. -/
lemma Represents.login (h : Represents sha log sessions) {token : List UInt8}
    (hlen : token.length = authSessionTokenLen) (hnew : token ∉ issuedTokens log) (now : Int64) :
    Represents sha (log ++ [.loggedIn token now (evictedBy sessions)])
      (loggedIn sessions (sha token) now) := by
  -- an older session has another token and thus another digest
  have hother : ∀ {token' created}, Live sha log token' created → token' ≠ token := by
    rintro token' created hlive rfl
    exact hnew hlive.mem_issued
  have hdigest : ∀ {i}, (sessions i).active → (sessions i).tokenHash ≠ sha token := by
    intro i hactive heq
    exact hother (h.token_of_digest hinj hactive hlen heq).1 rfl
  -- and it is evicted only from the slot that the new one takes
  have hevicted : ∀ {i token'}, (sessions i).active → (sessions i).tokenHash = sha token' →
      (evictedBy sessions = some (sha token') ↔ i = findFreeSession sessions) := by
    intro i token' hactive heq
    rcases findFreeSession_cases sessions with ⟨hfree, hnone⟩ | ⟨hall, -, hsome⟩
    · rw [hnone]
      exact ⟨nofun, fun hi => absurd (hi ▸ hactive) hfree⟩
    · rw [hsome, Option.some.injEq, ← heq]
      exact ⟨fun hd => h.distinct i _ hactive (hall _) hd.symm, fun hi => hi ▸ rfl⟩
  have hself : loggedIn sessions (sha token) now (findFreeSession sessions) = newSession (sha token) now :=
    Function.update_self _ _ _
  have hne : ∀ {i}, i ≠ findFreeSession sessions → loggedIn sessions (sha token) now i = sessions i :=
    fun hi => Function.update_of_ne hi _ _
  refine ⟨?_, ?_, ?_, ?_⟩
  · rw [issuedTokens_append]
    intro token' hmem
    rcases List.mem_append.mp hmem with hmem | hmem
    · exact h.lengths token' hmem
    · rw [List.mem_singleton.mp hmem]
      exact hlen
  · intro i j hi hj heq
    by_cases hik : i = findFreeSession sessions
    · by_cases hjk : j = findFreeSession sessions
      · exact hik.trans hjk.symm
      · rw [hne hjk] at hj heq
        rw [hik, hself] at heq
        exact absurd heq.symm (hdigest hj)
    · rw [hne hik] at hi heq
      by_cases hjk : j = findFreeSession sessions
      · rw [hjk, hself] at heq
        exact absurd heq (hdigest hi)
      · rw [hne hjk] at hj heq
        exact h.distinct i j hi hj heq
  · intro i hi
    by_cases hik : i = findFreeSession sessions
    · rw [hik, hself]
      refine ⟨token, live_append.mpr (.inr ⟨_, rfl⟩), rfl, ?_⟩
      rw [lastUse_append]
      exact (if_pos rfl).symm
    · rw [hne hik] at hi ⊢
      obtain ⟨token', hlive, heq, hlast⟩ := h.sound i hi
      refine ⟨token', live_append.mpr (.inl ⟨hlive, fun hkills => hik ?_⟩), heq, ?_⟩
      · exact (hevicted hi heq).mp hkills
      · rw [lastUse_append]
        exact hlast.trans (if_neg fun ht => hother hlive ht.symm).symm
  · intro token' created hlive
    rcases live_append.mp hlive with ⟨hlive, hkills⟩ | ⟨evicted, hevent⟩
    · obtain ⟨i, hactive, heq⟩ := h.complete token' created hlive
      have hik : i ≠ findFreeSession sessions := fun hik => hkills ((hevicted hactive heq).mpr hik)
      exact ⟨i, by rw [hne hik]; exact hactive, by rw [hne hik]; exact heq⟩
    · cases hevent
      exact ⟨findFreeSession sessions, by rw [hself]; rfl, by rw [hself]; rfl⟩

/-- There are as many live sessions as active slots. -/
lemma Represents.ncard_liveTokens (h : Represents sha log sessions) :
    (liveTokens sha log).ncard = Set.ncard {i | (sessions i).active = true} := by
  have himage : sha '' liveTokens sha log
      = (fun i => (sessions i).tokenHash) '' {i | (sessions i).active = true} := by
    ext digest
    constructor
    · rintro ⟨token, ⟨created, hlive⟩, rfl⟩
      obtain ⟨i, hactive, heq⟩ := h.complete token created hlive
      exact ⟨i, hactive, heq⟩
    · rintro ⟨i, hactive, rfl⟩
      obtain ⟨token, hlive, heq, -⟩ := h.sound i hactive
      exact ⟨token, ⟨_, hlive⟩, heq.symm⟩
  have htokens : Set.InjOn sha (liveTokens sha log) :=
    hinj.mono fun token ⟨_, hlive⟩ => h.lengths token hlive.mem_issued
  have hslots : Set.InjOn (fun i => (sessions i).tokenHash) {i | (sessions i).active = true} :=
    fun i hi j hj heq => h.distinct i j hi hj heq
  rw [← htokens.ncard_image, himage, hslots.ncard_image]

/-- The session a login evicts. -/
lemma Represents.evicts (h : Represents sha log sessions) (hnodup : (issuedTokens log).Nodup) :
    Evicts sha log (evictedBy sessions) := by
  rcases findFreeSession_cases sessions with ⟨hfree, hnone⟩ | ⟨hall, hslot, hsome⟩
  · rw [hnone, Evicts, h.ncard_liveTokens hinj]
    have hlt : Set.ncard {i | (sessions i).active = true} < Set.ncard (Set.univ : Set (Fin authMaxSessions)) :=
      Set.ncard_lt_ncard (Set.ssubset_univ_iff.mpr fun huniv =>
        hfree (Set.eq_univ_iff_forall.mp huniv (findFreeSession sessions)))
    rwa [Set.ncard_univ, Nat.card_fin] at hlt
  · rw [hsome, Evicts, h.ncard_liveTokens hinj, Set.eq_univ_of_forall (s := {i | (sessions i).active = true}) hall,
      Set.ncard_univ, Nat.card_fin]
    refine ⟨rfl, ?_⟩
    obtain ⟨token, hlive, heq, hlast⟩ := h.sound (findFreeSession sessions) (hall _)
    refine ⟨token, _, hlive, heq.symm, fun token' created' hlive' => ?_⟩
    obtain ⟨i, -, -, -, hlast'⟩ := h.slot hnodup hinj hlive'
    rw [← hlast, ← hlast', hslot]
    exact oldestSession_le sessions i

end Login

end ArcticController
