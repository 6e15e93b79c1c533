import TrustTrial.Proofs.Decoding
import TrustTrial.Proofs.Trace

/-!
# TrustTrial.Proofs.Comparing

What a scenario compares of its last two listings. They are compared as texts, after they have been
decoded: a scenario that passes has seen the same text twice. That settles the bytes as well unless
the text has replacement characters (`runScenario_compares`); those of two different outputs that
are no UTF-8 may be the same (`listing_passes_unequal`).
-/

namespace TrustTrial
namespace Trial

variable {σ α β : Type} {m : Machine σ} {r : Runner}

/-- A run along a script that gets through has made all its calls. -/
theorem Scripted.calls_of_ok {is : List Invocation} {x : Trial σ α} {s t : Session σ} {a : α}
    (h : Scripted m r is x) (hrun : run x s = (.ok a, t)) :
    ∃ done, calls t.journal = calls s.journal ++ done ∧
      done.map Prod.fst = is.map (r.request m) := by
  obtain ⟨done, hcalls, hupshot, -⟩ := h.upshot s
  rw [hrun] at hcalls hupshot
  cases hupshot with
  | finished hplan _ => exact ⟨done, hcalls, hplan⟩

/-- Two calls that were answered with the same text, between the calls of two scripts. -/
def Compared (m : Machine σ) (r : Runner) (front : List Invocation) (i j : Invocation)
    (back : List Invocation) (done : List (Request × Reply)) : Prop :=
  ∃ before first second after,
    done = before ++ [(r.request m i, first), (r.request m j, second)] ++ after ∧
      before.map Prod.fst = front.map (r.request m) ∧
      after.map Prod.fst = back.map (r.request m) ∧
      Text.ofBytes first.stdout = Text.ofBytes second.stdout

/-- A step that succeeds only if two of its calls are answered with the same text. -/
def Compares (m : Machine σ) (r : Runner) (front : List Invocation) (i j : Invocation)
    (back : List Invocation) (x : Trial σ α) : Prop :=
  ∀ s t a, run x s = (.ok a, t) → ∃ done, calls t.journal = calls s.journal ++ done ∧
    Compared m r front i j back done

namespace Compares

variable {front back is : List Invocation} {i j : Invocation} {x : Trial σ α} {f : α → Trial σ β}

/-- A script in front of the comparison. -/
theorem behind (hx : Scripted m r is x) (hf : ∀ a, Compares m r front i j back (f a)) :
    Compares m r (is ++ front) i j back (x >>= f) := by
  intro s u b h
  obtain ⟨a, t, hrun, h⟩ := run_bind_ok.1 h
  obtain ⟨early, hearly, hscript⟩ := hx.calls_of_ok hrun
  obtain ⟨done, hcalls, before, first, second, after, hdone, hbefore, hafter, hsame⟩ := hf a t u b h
  refine ⟨early ++ done, ?_, early ++ before, first, second, after, ?_, ?_, hafter, hsame⟩
  · rw [hcalls, hearly, List.append_assoc]
  · simp only [hdone, List.append_assoc]
  · rw [List.map_append, hscript, hbefore, List.map_append]

/-- A quiet step in front of the comparison. -/
theorem after (hx : Quiet x) (hf : ∀ a, Compares m r front i j back (f a)) :
    Compares m r front i j back (x >>= f) := by
  have h := behind (.quiet hx) hf
  rwa [List.nil_append] at h

/-- A quiet step behind the comparison. -/
theorem last (hx : Compares m r front i j back x) (hf : ∀ a, Quiet (f a)) :
    Compares m r front i j back (x >>= f) := by
  intro s u b h
  obtain ⟨a, t, hrun, h⟩ := run_bind_ok.1 h
  obtain ⟨done, hcalls, hdone⟩ := hx s t a hrun
  have hquiet := hf a t
  rw [h] at hquiet
  exact ⟨done, hquiet.calls.trans hcalls, hdone⟩

end Compares

section Bodies

variable {site : Site} {stand : Stand}

theorem calls_invoke {i : Invocation} {s t : Session σ} {output : String}
    (h : run (invoke m r i) s = (.ok output, t)) :
    ∃ reply, calls t.journal = calls s.journal ++ [(r.request m i, reply)] ∧
      Text.ofBytes reply.stdout = output := by
  obtain ⟨reply, -, houtput, -, -, hjournal⟩ := run_invoke_ok h
  refine ⟨reply, ?_, houtput⟩
  rw [hjournal]
  exact List.filterMap_append

/-- What follows the two listings fails if they are different texts. -/
theorem compares_listBoth {f : String × String → Trial σ α} {back : List Invocation}
    (hf : ∀ output, Scripted m site.runner back (f output))
    (hsame : ∀ first second s a t, run (f (first, second)) s = (.ok a, t) → first = second) :
    Compares m site.runner [] (site.primary.invocation ["list", site.repo])
      (stand.secondary.invocation ["list", site.repo]) back (listBoth m site stand >>= f) := by
  intro s v a h
  obtain ⟨output, u, hboth, h⟩ := run_bind_ok.1 h
  obtain ⟨first, t, hfirst, hboth⟩ := run_bind_ok.1 hboth
  obtain ⟨second, u', hsecond, hpair⟩ := run_bind_ok.1 hboth
  obtain ⟨rfl, rfl⟩ := run_pure_ok.1 hpair
  obtain ⟨reply, hcalls, houtput⟩ := calls_invoke hfirst
  obtain ⟨reply', hcalls', houtput'⟩ := calls_invoke hsecond
  obtain ⟨after, hafter, hback⟩ := (hf _).calls_of_ok h
  refine ⟨_, ?_, [], reply, reply', after, rfl, rfl, hback, ?_⟩
  · rw [hafter, hcalls', hcalls]
    simp only [List.append_assoc, List.nil_append, List.cons_append]
  · rw [houtput, houtput']
    exact hsame _ _ _ _ _ h

/-- What a scenario calls before its two listings. -/
def beforeListings (site : Site) (stand : Stand) : Scenario → List Invocation
  | .basicRepo => [
    site.primary.invocation ["init", site.repo],
    site.primary.invocation ["add", site.repo, basicTarget, stand.payload],
    site.primary.invocation ["publish", site.repo]]
  | .rootRotation =>
    site.primary.invocation ["key", "rotate", site.repo, "snapshot", "-r"] ::
    stand.secondary.invocation ["list", site.repo] ::
    site.primary.invocation ["key", "list"] :: (rotationScript site.repo site.primary stand ++ [
    stand.secondary.invocation ["publish", site.repo],
    site.primary.invocation ["add", site.repo, rotationTarget, stand.payload],
    site.primary.invocation ["publish", site.repo]])
  | .rootRerotation =>
    stand.secondary.invocation ["list", site.repo] ::
    site.primary.invocation ["key", "list"] :: (rotationScript site.repo site.primary stand ++ [
    stand.secondary.invocation ["publish", site.repo],
    site.primary.invocation ["publish", site.repo]])

/-- What it calls after them. -/
def afterListings (site : Site) (stand : Stand) : Scenario → List Invocation
  | .basicRepo => [
    (site.primary.invocation
      ["verify", site.repo, basicTarget, "-i", stand.payload, "-q"]).withoutCredentials]
  | _ => []

/-- The two listings are the last ones of a scenario. -/
theorem script_listings (site : Site) (stand : Stand) (scenario : Scenario) :
    scenario.script site.repo site.primary stand =
        beforeListings site stand scenario ++
          [site.primary.invocation ["list", site.repo],
            stand.secondary.invocation ["list", site.repo]] ++
          afterListings site stand scenario ∧
      ∀ i ∈ afterListings site stand scenario, i.args.head? ≠ some "list" := by
  cases scenario with
  | basicRepo =>
    refine ⟨rfl, fun i hi => ?_⟩
    rw [afterListings, List.mem_singleton] at hi
    subst hi
    exact fun h => absurd (Option.some.inj h) (by decide)
  | rootRotation => exact ⟨rfl, nofun⟩
  | rootRerotation => exact ⟨rfl, nofun⟩

/-- A step that compares the last two listings of a scenario. -/
def ComparesListings (m : Machine σ) (site : Site) (stand : Stand) (scenario : Scenario)
    (x : Trial σ α) : Prop :=
  Compares m site.runner (beforeListings site stand scenario)
    (site.primary.invocation ["list", site.repo]) (stand.secondary.invocation ["list", site.repo])
    (afterListings site stand scenario) x

theorem compares_basicRepo : ComparesListings m site stand .basicRepo (basicRepo m site stand) := by
  refine .after (quiet_announce _ _) fun _ => .behind (.call _) fun _ => ?_
  refine .behind (scripted_add m site stand _) fun _ => ?_
  refine .behind (scripted_publish m site _) fun _ => .after (quiet_announce _ _) fun _ => ?_
  refine compares_listBoth (fun output => ?_) fun first second s a t h => ?_
  · refine .after (quiet_ofExcept _) fun rows => ?_
    split
    · exact .cons fun _ => .quiet (quiet_pure _)
    · exact .fail _ _
  · obtain ⟨rows, u, hrows, -⟩ := run_bind_ok.1 h
    exact (agreedListing_eq_ok.1 (run_ofExcept_ok.1 hrows).1).1

theorem compares_rootRotation (history : RootHistory) :
    ComparesListings m site stand .rootRotation (rootRotation m site stand history) := by
  refine .after (quiet_enter _) fun _ => .behind (.call _) fun _ => ?_
  refine .after (quiet_enter _) fun _ => .after (quiet_announce _ _) fun _ => ?_
  refine .behind (scripted_listTargets m site _) fun _ => ?_
  refine .behind (scripted_listKeys m site _) fun _ => .after (quiet_inStage _ _) fun _ => ?_
  refine .after (quiet_loadRoot _ _ _) fun _ => .after (quiet_inStage _ _) fun _ => ?_
  refine .behind (scripted_rotateRoot m site stand _ _) fun _ => .after (quiet_enter _) fun _ => ?_
  refine .after (quiet_announce _ _) fun _ => .behind (scripted_publish m site _) fun _ => ?_
  refine .behind (scripted_add m site stand _) fun _ => ?_
  refine .behind (scripted_publish m site _) fun _ => ?_
  refine compares_listBoth (fun output => ?_) fun first second s a t h => ?_
  · refine .after (quiet_inStage _ _) fun targets => ?_
    dsimp only
    split
    · exact .quiet (quiet_pure _)
    · exact .fail _ _
  · obtain ⟨rows, u, hrows, -⟩ := run_bind_ok.1 h
    exact (agreedListing_eq_ok.1 (run_inStage_ok.1 hrows).1).1

theorem compares_rootRerotation (history : RootHistory) :
    ComparesListings m site stand .rootRerotation (rootRerotation m site stand history) := by
  refine .after (quiet_enter _) fun _ => .after (quiet_announce _ _) fun _ => ?_
  refine .behind (scripted_listTargets m site _) fun _ => ?_
  refine .behind (scripted_listKeys m site _) fun rows => ?_
  dsimp only
  split
  · exact nofun
  refine .after (quiet_loadRoot _ _ _) fun _ => .after (quiet_inStage _ _) fun _ => ?_
  refine .behind (scripted_rotateRoot m site stand _ _) fun _ => .after (quiet_enter _) fun _ => ?_
  refine .after (quiet_announce _ _) fun _ => .behind (scripted_publish m site _) fun _ => ?_
  refine .behind (scripted_publish m site _) fun _ => ?_
  refine compares_listBoth (fun output => ?_) fun first second s a t h => ?_
  · refine .after (quiet_inStage _ _) fun targets => ?_
    split
    · exact .quiet (quiet_pure _)
    · exact .fail _ _
  · obtain ⟨rows, u, hrows, -⟩ := run_bind_ok.1 h
    exact (agreedListing_eq_ok.1 (run_inStage_ok.1 hrows).1).1

theorem compares_body (history : RootHistory) (scenario : Scenario) :
    ComparesListings m site stand scenario (body m site stand history scenario) := by
  cases scenario with
  | basicRepo => exact .last compares_basicRepo fun _ => quiet_pure _
  | rootRotation => exact compares_rootRotation history
  | rootRerotation => exact compares_rootRerotation history

end Bodies

/-! ## Whole scenarios -/

/-- A scenario that passes has made the calls of its script, and its last two listings, one from
each identity, are the same text. They are the same bytes if the text has no replacement
characters, and also if both are well-formed UTF-8. -/
theorem runScenario_compares {site : Site} {history ended : RootHistory} {scenario : Scenario}
    {s t : Session σ} (h : run (runScenario m site history scenario) s = (.ok ended, t)) :
    ∃ stand front back, scenario.script site.repo site.primary stand =
        front ++ [site.primary.invocation ["list", site.repo],
          stand.secondary.invocation ["list", site.repo]] ++ back ∧
      (∀ i ∈ back, i.args.head? ≠ some "list") ∧
      ∃ before first second after, calls t.journal = calls s.journal ++ (before ++
          [(site.runner.request m (site.primary.invocation ["list", site.repo]), first),
            (site.runner.request m (stand.secondary.invocation ["list", site.repo]), second)] ++
          after) ∧
        before.map Prod.fst = front.map (site.runner.request m) ∧
        after.map Prod.fst = back.map (site.runner.request m) ∧
        Text.ofBytes first.stdout = Text.ofBytes second.stdout ∧
        (Text.replacement ∉ (Text.ofBytes first.stdout).toList → first.stdout = second.stdout) ∧
        (first.stdout.IsValidUTF8 → second.stdout.IsValidUTF8 → first.stdout = second.stdout) := by
  obtain ⟨stand, u, v, w, hsetup, hbody, hclean, rfl⟩ := run_runScenario_ok h
  obtain ⟨-, hjournal, -⟩ := setUp_cases hsetup
  obtain ⟨hscript, hback⟩ := script_listings site stand scenario
  obtain ⟨_, hcalls, before, first, second, after, rfl, hbefore, hafter, hsame⟩ :=
    compares_body history scenario u v ended hbody
  have htidy := sameTalk_cleanUp m stand v
  rw [hclean] at htidy
  refine ⟨stand, _, _, hscript, hback, before, first, second, after, ?_, hbefore, hafter, hsame,
    Text.ofBytes_inj hsame, Text.ofBytes_inj_of_valid hsame⟩
  have hopened : calls u.journal = calls s.journal := by
    rw [hjournal, opened_journal]
    simp [calls, Event.call?]
  rw [(sameTalk_passed m w).journal, htidy.journal, hcalls, hopened]

/-! ## Samples -/

/-- A client that lists one target in every listing, followed by the next bytes of a supply. -/
def lister : Client (List UInt8) where
  run q supply disk :=
    if q.args.contains "list" then
      (⟨(basicTarget ++ " targets ").toUTF8.push (supply.headD 32), "", some 0⟩, supply.drop 1, disk)
    else (⟨.empty, "", some 0⟩, supply, disk)

/-- The basic scenario with such a client. -/
def listing (supply : List UInt8) : Except Failure RootHistory × Session (List UInt8) :=
  run (runScenario ((Main.machine "sample").withClient lister)
      ⟨sampleRunner, "sample", ⟨"main", "/tmp/main"⟩⟩ .empty .basicRepo)
    (Session.start Main.disk supply)

/-- What such a client says of its target, in bytes. -/
def targetBytes : List UInt8 := (basicTarget ++ " targets ").toUTF8.data.toList

/-- The bytes of the answers that are not empty. -/
def outputs (journal : List Event) : List (List UInt8) :=
  ((calls journal).map (fun c => c.2.stdout.data.toList)).filter (· ≠ [])

/-- Two listings of bytes that are UTF-8 pass because they are the same bytes. -/
theorem runScenario_compares_lister : ∃ before first second after,
    calls (listing [10, 10]).2.journal = before ++ [first, second] ++ after ∧
      first.2.stdout = second.2.stdout := by
  have hview : failure? (listing [10, 10]).1 = none ∧
      ∀ c ∈ calls (listing [10, 10]).2.journal,
        Text.replacement ∉ (Text.ofBytes c.2.stdout).toList := by decide +kernel
  rcases h : listing [10, 10] with ⟨result, t⟩
  rw [h] at hview
  obtain ⟨hpasses, htexts⟩ := hview
  cases result with
  | error failure => cases hpasses
  | ok ended =>
    obtain ⟨_, _, _, -, -, before, first, second, after, hcalls, -, -, -, hbytes, -⟩ :=
      runScenario_compares (by rw [← listing, h])
    have hstart : calls (Session.start Main.disk ([10, 10] : List UInt8)).journal = [] := rfl
    rw [hstart, List.nil_append] at hcalls
    dsimp only at htexts
    rw [hcalls] at htexts
    have hfirst := htexts _ (List.mem_append_left _ (List.mem_append_right _ List.mem_cons_self))
    exact ⟨before, _, _, after, hcalls, hbytes hfirst⟩

/-- Two listings that differ in a byte that is no UTF-8 pass as well. -/
theorem listing_passes_unequal : failure? (listing [0xff, 0xfe]).1 = none ∧
    outputs (listing [0xff, 0xfe]).2.journal = [targetBytes ++ [0xff], targetBytes ++ [0xfe]] := by
  decide +kernel

end Trial
end TrustTrial
