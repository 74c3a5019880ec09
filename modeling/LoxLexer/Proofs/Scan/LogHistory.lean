import LoxLexer.Proofs.Scan.Delivery
import LoxLexer.Scan.History

/-!
# What becomes of the diagnostics in a log

Each step of a history contributes some diagnostics, which do not depend on the
log: a scan contributes what it gives into an empty log, because a sink has no
say in a scan.  A log loses none of them, and adds, changes and moves none.
What has been drained from it and what it holds at the end are together the
contributions of all steps, in order (`map_collected_playAll`), and what it holds
after a step are the contributions since it was drained last
(`contributions_of_getElem?_playAll`).
-/

namespace LoxLexer
namespace Log

/-! ## What steps contribute -/

/-- The diagnostics that a step contributes. -/
def Step.contribution : Step → Except Fault (List Diagnostic)
  | .report line message => .ok [Diagnostic.ofText line message]
  | .accept diagnostic => .ok [diagnostic]
  | .add diagnostic => .ok [diagnostic]
  | .scan source => (LoxLexer.scan source).map fun result => result.reports.toList
  | .forward diagnostic => .ok [Diagnostic.ofText diagnostic.line diagnostic.message]
  | .drain => .ok []

/-- The diagnostics that steps contribute, in order. -/
def contributions : List Step → Except Fault (List Diagnostic)
  | [] => .ok []
  | step :: others => do
    let added ← step.contribution
    let later ← contributions others
    return added ++ later

/-- Whether a step takes all diagnostics out. -/
def Step.drains : Step → Bool
  | .drain => true
  | _ => false

/-- The steps after the last one that drains the log. -/
def sinceDrain (steps : List Step) : List Step :=
  (steps.reverse.takeWhile fun step => !step.drains).reverse

/-- The diagnostics that a reply hands out. -/
def Reply.handedOut : Reply → List Diagnostic
  | .drained diagnostics => diagnostics
  | .nothing | .scanned _ => []

/-- All that has been handed out in the course of a history that started with a
log, and after it what the log holds at the end. -/
def collected (log : Log) (played : List (Log × Reply)) : List Diagnostic :=
  (played.flatMap fun (_, reply) => reply.handedOut) ++
    ((played.map Prod.fst).getLastD log).toList

/-- A log has the given entries, and all that it says of their number is true. -/
structure Holds (log : Log) (entries : List Diagnostic) : Prop where
  toList : log.toList = entries
  size : log.size = entries.length
  errorCount : log.errorCount = entries.length
  hasErrors : log.hasErrors = true ↔ entries.length ≠ 0
  isEmpty : log.isEmpty = !log.hasErrors

theorem holds_toList (log : Log) : log.Holds log.toList where
  toList := rfl
  size := by rw [size, toList, Array.length_toList]
  errorCount := by rw [errorCount, toList, Array.length_toList]
  hasErrors := by simp [hasErrors, toList]
  isEmpty := by rw [hasErrors, isEmpty, Bool.not_not]

theorem collected_nil (log : Log) : collected log [] = log.toList := rfl

theorem collected_cons (log next : Log) (reply : Reply) (later : List (Log × Reply)) :
    collected log ((next, reply) :: later) = reply.handedOut ++ collected next later := by
  simp only [collected, List.flatMap_cons, List.map_cons, List.getLastD_cons,
    List.append_assoc]

theorem contributions_cons_of_ok
    {step : Step} {added : List Diagnostic}
    (hstep : step.contribution = .ok added)
    (others : List Step) :
    contributions (step :: others) = (contributions others).map (added ++ ·) := by
  rw [contributions, hstep]
  cases contributions others with
  | error fault => rfl
  | ok later => rfl

theorem contributions_concat_of_ok
    {steps : List Step} {step : Step} {before added : List Diagnostic}
    (hsteps : contributions steps = .ok before)
    (hstep : step.contribution = .ok added) :
    contributions (steps ++ [step]) = .ok (before ++ added) := by
  induction steps generalizing before with
  | nil =>
      cases hsteps
      rw [List.nil_append, contributions_cons_of_ok hstep]
      simp [contributions, Except.map]
  | cons first others ih =>
      cases hfirst : first.contribution with
      | error fault =>
          rw [contributions, hfirst] at hsteps
          cases hsteps
      | ok front =>
          rw [contributions_cons_of_ok hfirst] at hsteps
          cases hothers : contributions others with
          | error fault =>
              rw [hothers] at hsteps
              cases hsteps
          | ok back =>
              rw [hothers] at hsteps
              cases hsteps
              rw [List.cons_append, contributions_cons_of_ok hfirst, ih hothers]
              simp [Except.map]

theorem sinceDrain_concat (steps : List Step) (step : Step) :
    sinceDrain (steps ++ [step]) = if step.drains then [] else sinceDrain steps ++ [step] := by
  rw [sinceDrain, List.reverse_append, List.reverse_singleton, List.singleton_append,
    List.takeWhile_cons]
  cases step.drains with
  | true => rfl
  | false => simp [sinceDrain]

/-! ## One step -/

/-- A step contributes diagnostics to a log, and what was in it stays or is handed
out. -/
structure Plays (log : Log) (step : Step) (added : List Diagnostic) (next : Log)
    (reply : Reply) : Prop where
  contribution : step.contribution = .ok added
  kept : next.toList = if step.drains then [] else log.toList ++ added
  handedOut : reply.handedOut = if step.drains then log.toList else []

/-- A step is played, unless it is a scan that faults. -/
theorem play_cases (log : Log) (step : Step) :
    (∃ fault, step.contribution = .error fault ∧ log.play step = .error fault) ∨
      ∃ added next reply, log.play step = .ok (next, reply) ∧
        Plays log step added next reply := by
  cases step with
  | report line message =>
      exact Or.inr ⟨_, _, _, rfl, rfl, toList_add log _, rfl⟩
  | accept diagnostic => exact Or.inr ⟨_, _, _, rfl, rfl, toList_add log _, rfl⟩
  | add diagnostic => exact Or.inr ⟨_, _, _, rfl, rfl, toList_add log _, rfl⟩
  | forward diagnostic => exact Or.inr ⟨_, _, _, rfl, rfl, toList_add log _, rfl⟩
  | drain => exact Or.inr ⟨_, _, _, rfl, rfl, rfl, rfl⟩
  | scan source =>
      rw [Step.contribution, play, scanInto_eq_map]
      cases hscan : LoxLexer.scan source with
      | error fault => exact Or.inl ⟨fault, rfl, rfl⟩
      | ok result =>
          refine Or.inr ⟨_, _, _, rfl, ?_, Scan.toList_told log result.reports, rfl⟩
          rw [Step.contribution, hscan]
          rfl

namespace Plays

variable {log next : Log} {step : Step} {added : List Diagnostic} {reply : Reply}

/-- Nothing is lost, added, changed or moved by a step. -/
theorem handedOut_append
    (hplays : Plays log step added next reply) :
    reply.handedOut ++ next.toList = log.toList ++ added := by
  rw [hplays.handedOut, hplays.kept]
  cases hdrains : step.drains with
  | false => rfl
  | true =>
      cases step with
      | drain =>
          cases hplays.contribution
          rfl
      | _ => cases hdrains

theorem contributions_sinceDrain
    {earlier : List Step}
    (hplays : Plays log step added next reply)
    (hearlier : contributions (sinceDrain earlier) = .ok log.toList) :
    contributions (sinceDrain (earlier ++ [step])) = .ok next.toList := by
  rw [sinceDrain_concat, hplays.kept]
  cases step.drains with
  | true => rfl
  | false => exact contributions_concat_of_ok hearlier hplays.contribution

end Plays

/-! ## A whole history -/

theorem playAll_cons_of_ok
    {log next : Log} {step : Step} {reply : Reply}
    (hplay : log.play step = .ok (next, reply))
    (others : List Step) :
    playAll log (step :: others) = (playAll next others).map ((next, reply) :: ·) := by
  rw [playAll, hplay]
  simp only [bind, Except.bind]
  cases playAll next others with
  | error fault => rfl
  | ok later => rfl

/-- A history that has been played to its end has had its first step played, and
the others after it. -/
theorem exists_of_playAll_cons_eq_ok
    {log : Log} {step : Step} {others : List Step} {played : List (Log × Reply)}
    (hplayed : playAll log (step :: others) = .ok played) :
    ∃ added next reply later, Plays log step added next reply ∧
      playAll next others = .ok later ∧ played = (next, reply) :: later := by
  rcases play_cases log step with ⟨fault, -, hplay⟩ | ⟨added, next, reply, hplay, hplays⟩
  · rw [playAll, hplay] at hplayed
    cases hplayed
  · rw [playAll_cons_of_ok hplay] at hplayed
    cases hlater : playAll next others with
    | error fault =>
        rw [hlater] at hplayed
        cases hplayed
    | ok later =>
        rw [hlater] at hplayed
        cases hplayed
        exact ⟨added, next, reply, later, hplays, hlater, rfl⟩

theorem length_playAll
    {log : Log} {steps : List Step} {played : List (Log × Reply)}
    (hplayed : playAll log steps = .ok played) :
    played.length = steps.length := by
  induction steps generalizing log played with
  | nil =>
      cases hplayed
      rfl
  | cons step others ih =>
      obtain ⟨added, next, reply, later, -, hlater, rfl⟩ := exists_of_playAll_cons_eq_ok hplayed
      rw [List.length_cons, List.length_cons, ih hlater]

/-- What comes out of a history is what was in the log and what the steps
contribute. -/
theorem map_collected_playAll (log : Log) (steps : List Step) :
    (playAll log steps).map (collected log) =
      (contributions steps).map (log.toList ++ ·) := by
  induction steps generalizing log with
  | nil => simp [playAll, contributions, Except.map, collected_nil]
  | cons step others ih =>
      rcases play_cases log step with ⟨fault, hstep, hplay⟩ | ⟨added, next, reply, hplay, hplays⟩
      · rw [playAll, contributions, hplay, hstep]
        rfl
      · have hothers := ih next
        rw [playAll_cons_of_ok hplay, contributions_cons_of_ok hplays.contribution]
        cases hlater : playAll next others with
        | error fault =>
            cases hadded : contributions others with
            | error other =>
                rw [hlater, hadded] at hothers
                cases hothers
                rfl
            | ok back =>
                rw [hlater, hadded] at hothers
                cases hothers
        | ok later =>
            cases hadded : contributions others with
            | error fault =>
                rw [hlater, hadded] at hothers
                cases hothers
            | ok back =>
                rw [hlater, hadded] at hothers
                have hcollected : collected next later = next.toList ++ back :=
                  Except.ok.inj hothers
                simp only [Except.map]
                rw [collected_cons, hcollected, ← List.append_assoc, hplays.handedOut_append,
                  List.append_assoc]

/-- A history is played to its end if all its sources are short enough. -/
theorem exists_playAll_eq_ok
    {steps : List Step}
    (hsteps : ∀ source, Step.scan source ∈ steps → source.length ≤ 4294967294)
    (log : Log) :
    ∃ played, playAll log steps = .ok played := by
  induction steps generalizing log with
  | nil => exact ⟨[], rfl⟩
  | cons step others ih =>
      rcases play_cases log step with ⟨fault, hstep, -⟩ | ⟨added, next, reply, hplay, -⟩
      · cases step with
        | scan source =>
            have hfits := fitsWords_of_length_le (hsteps source List.mem_cons_self)
            obtain ⟨result, hresult, -⟩ := exists_scan_eq_ok hfits
            rw [Step.contribution, hresult] at hstep
            cases hstep
        | _ => cases hstep
      · obtain ⟨later, hlater⟩ :=
          ih (fun source hmem => hsteps source (List.mem_cons_of_mem _ hmem)) next
        refine ⟨(next, reply) :: later, ?_⟩
        rw [playAll_cons_of_ok hplay, hlater]
        rfl

/-- After each step a log holds what has been contributed since it was drained. -/
theorem contributions_of_getElem?_playAll
    {log next : Log} {earlier steps : List Step} {played : List (Log × Reply)} {index : Nat}
    {reply : Reply}
    (hearlier : contributions (sinceDrain earlier) = .ok log.toList)
    (hplayed : playAll log steps = .ok played)
    (hentry : played[index]? = some (next, reply)) :
    contributions (sinceDrain (earlier ++ steps.take (index + 1))) = .ok next.toList := by
  -- the steps before the present one are carried along in `earlier`
  induction steps generalizing log earlier played index with
  | nil =>
      cases hplayed
      cases hentry
  | cons step others ih =>
      obtain ⟨added, first, answer, later, hplays, hlater, rfl⟩ :=
        exists_of_playAll_cons_eq_ok hplayed
      have hfirst := hplays.contributions_sinceDrain hearlier
      rw [List.take_succ_cons]
      cases index with
      | zero =>
          cases hentry
          exact hfirst
      | succ index =>
          rw [List.getElem?_cons_succ] at hentry
          have hothers := ih hfirst hlater hentry
          rwa [List.append_assoc, List.singleton_append] at hothers

/-- Reports are conserved by every history of a log.  What has been drained and
what is left at the end are the contributions of the steps; after each step the
log holds, and counts, the contributions since it was drained; and a sink that is
told of lines and messages only is told of those of each diagnostic, in order,
by a scan that gives the same tokens. -/
theorem playAll_conserves (steps : List Step) :
    (playAll empty steps).map (collected empty) = contributions steps ∧
      ((∀ source, Step.scan source ∈ steps → source.length ≤ 4294967294) →
        ∃ played, playAll empty steps = .ok played) ∧
      (∀ played, playAll empty steps = .ok played → played.length = steps.length ∧
        ∀ index log reply, played[index]? = some (log, reply) →
          ∃ entries, contributions (sinceDrain (steps.take (index + 1))) = .ok entries ∧
            log.Holds entries) ∧
      ∀ {σ : Type} (report : σ → Word → String → σ) (state : σ) (source : String),
        scanInto (Sink.ofReport report) state source =
          (LoxLexer.scan source).map fun result =>
            { tokens := result.tokens
              reports := result.reports.toList.foldl
                (fun state diagnostic => report state diagnostic.line diagnostic.message) state
              events := result.events } := by
  refine ⟨?_, fun hsteps => exists_playAll_eq_ok hsteps empty, ?_, ?_⟩
  · have hcollected := map_collected_playAll empty steps
    rw [toList_empty] at hcollected
    rw [hcollected]
    cases contributions steps with
    | error fault => rfl
    | ok all => rfl
  · intro played hplayed
    refine ⟨length_playAll hplayed, ?_⟩
    intro index log reply hentry
    have hnothing : contributions (sinceDrain []) = .ok empty.toList := rfl
    have hentries := contributions_of_getElem?_playAll hnothing hplayed hentry
    rw [List.nil_append] at hentries
    exact ⟨log.toList, hentries, log.holds_toList⟩
  · intro σ report state source
    exact scanInto_eq_map (Sink.ofReport report) state source

/-- Two scans into one log, a report and a diagnostic told of without its file, its
span and its code, and the first three entries drained in between. -/
theorem playAll_conserves_of_drain :
    (∀ source, Step.scan source ∈ [.scan "@", .report 3 "odd", .drain, .scan "\"a",
        .forward ⟨some "f", 4, some ⟨1, 2⟩, "m", 7⟩] → source.length ≤ 4294967294) ∧
      ∃ played, playAll empty [.scan "@", .report 3 "odd", .drain, .scan "\"a",
          .forward ⟨some "f", 4, some ⟨1, 2⟩, "m", 7⟩] = .ok played ∧
        collected empty played =
          [⟨none, 1, some ⟨0, 1⟩, "Unexpected character '@'.", 1001⟩,
            ⟨none, 3, none, "odd", 0⟩,
            ⟨none, 1, some ⟨0, 2⟩, "Unterminated string.", 1002⟩,
            ⟨none, 4, none, "m", 0⟩] := by
  have hsteps : ∀ source, Step.scan source ∈ [.scan "@", .report 3 "odd", .drain,
      .scan "\"a", .forward ⟨some "f", 4, some ⟨1, 2⟩, "m", 7⟩] →
        source.length ≤ 4294967294 := by
    intro source hmem
    simp only [List.mem_cons, List.not_mem_nil, or_false, Step.scan.injEq, reduceCtorEq,
      false_or] at hmem
    rcases hmem with rfl | rfl
    · decide
    · decide
  obtain ⟨hcollected, hplayed, -⟩ := playAll_conserves [.scan "@", .report 3 "odd", .drain,
    .scan "\"a", .forward ⟨some "f", 4, some ⟨1, 2⟩, "m", 7⟩]
  obtain ⟨played, hplayed⟩ := hplayed hsteps
  rw [hplayed] at hcollected
  refine ⟨hsteps, played, hplayed, Except.ok.inj (hcollected.trans ?_)⟩
  decide +kernel

end Log
end LoxLexer
