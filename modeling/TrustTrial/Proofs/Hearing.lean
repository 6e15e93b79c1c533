import TrustTrial.Notary.Store
import TrustTrial.Prompts
import TrustTrial.Proofs.Lines
import TrustTrial.Proofs.Places

/-!
# TrustTrial.Proofs.Hearing

What is told on the input of the notary, and what it hears. A payload that comes last is told
without a line end and everything else with one; the notary reads lines and takes the end of its
input for the end of a line. Both agree (`hear_encode`): the answers are heard as they were told,
nothing is left, and two sets of answers sound different unless both are nothing or an empty payload.

An answer is found again by its place among the line feeds, so the texts must not hold any. A
carriage return at the end of a line is lost: a payload is heard without those that it ends in, and
nothing of the kind may happen to credentials.
-/

namespace TrustTrial
namespace Notary

/-! ## Lines of the input -/

/-- The lines of an input by their numbers. Past its end all lines are empty. -/
def lineAt (input : List UInt8) : Nat → Option String
  | 0 => Text.lineText (Text.cutLine input).1
  | n + 1 => lineAt (Text.cutLine input).2 n

theorem run_readLine (d : Desk) :
    Step.run readLine d =
      (match lineAt d.input 0 with
        | none => .error .inputNotText
        | some line => .ok line, { d with input := (Text.cutLine d.input).2 }) := by
  simp only [Step.run, readLine, lineAt]
  cases Text.lineText (Text.cutLine d.input).1 <;> rfl

theorem run_readLine_ok {d e : Desk} {line : String} (h : Step.run readLine d = (.ok line, e)) :
    lineAt d.input 0 = some line ∧ e = { d with input := (Text.cutLine d.input).2 } := by
  rw [run_readLine] at h
  cases hline : lineAt d.input 0 with
  | none =>
    rw [hline] at h
    cases h
  | some heard =>
    rw [hline] at h
    cases h
    exact ⟨rfl, rfl⟩

/-- A line that ends in a line feed. -/
theorem run_readLine_line {line : String} (h : '\n' ∉ line.toList) {d : Desk} {rest : List UInt8}
    (hd : d.input = bytes (line ++ "\n") ++ rest) :
    Step.run readLine d = (.ok (Text.dropLineEnds line), { d with input := rest }) := by
  have hcut : Text.cutLine d.input = (bytes line, rest) := by
    rw [hd, bytes_append, List.append_assoc]
    exact cutLine_line (newline_notMem_bytes h) rest
  rw [run_readLine, lineAt, hcut, lineText_bytes]

/-- A line that ends with the input. -/
theorem run_readLine_end {line : String} (h : '\n' ∉ line.toList) {d : Desk}
    (hd : d.input = bytes line) :
    Step.run readLine d = (.ok (Text.dropLineEnds line), { d with input := [] }) := by
  have hcut : Text.cutLine d.input = (bytes line, []) := by
    rw [hd]
    exact cutLine_end (newline_notMem_bytes h)
  rw [run_readLine, lineAt, hcut, lineText_bytes]

/-! ## Carriage returns -/

/-- A line as it is heard: the text without the carriage returns that it ends in. -/
structure HeardAs (text line : String) : Prop where
  ending : line.toList.getLast? ≠ some '\r'
  returns : ∃ n, text.toList = line.toList ++ List.replicate n '\r'

theorem heardAs_dropLineEnds {text : String} (h : '\n' ∉ text.toList) :
    HeardAs text (Text.dropLineEnds text) := by
  let kept := text.toList.reverse.dropWhile Text.isLineEnd
  let dropped := text.toList.reverse.takeWhile Text.isLineEnd
  have hkept : (Text.dropLineEnds text).toList = kept.reverse := String.toList_ofList
  have hsplit : text.toList = kept.reverse ++ dropped.reverse := by
    rw [← List.reverse_append, List.takeWhile_append_dropWhile, List.reverse_reverse]
  have hdropped : ∀ c ∈ dropped, c = '\r' := by
    intro c hc
    have hend : Text.isLineEnd c = true := List.all_eq_true.1 List.all_takeWhile c hc
    have hmem : c ∈ text.toList := List.mem_reverse.1 ((List.takeWhile_prefix _).subset hc)
    have hne : c ≠ '\n' := fun he => h (he ▸ hmem)
    simpa [Text.isLineEnd, hne] using hend
  refine ⟨?_, dropped.length, ?_⟩
  · rw [hkept, List.getLast?_reverse]
    intro hhead
    have hstop := List.head?_dropWhile_not Text.isLineEnd text.toList.reverse
    rw [hhead] at hstop
    exact absurd hstop (by decide)
  · rw [hkept, hsplit, List.eq_replicate_of_mem hdropped, List.reverse_replicate,
      List.length_replicate]

/-! ## Hearing answers -/

/-- Reads a user name and a password. -/
def hearLogin : Step Credentials := do
  let username ← readLine
  let password ← readLine
  pure ⟨username, password⟩

/-- Reads a confirmation, if one is wanted, and then a user name and a password, if they are. -/
def hear (confirmed named : Bool) : Step (Option String × Option Credentials) := do
  let payload ← if confirmed then (do let line ← readLine; pure (some line)) else pure none
  let credentials ← if named then (do let c ← hearLogin; pure (some c)) else pure none
  pure (payload, credentials)

/-- The login of the notary is to hear credentials, if it wants any, and to compare them. -/
theorem login_eq (here : Disk.Location) (server : String) :
    login here server = (do
      if ← present here (loginPath server) then
        let expected ← readFile here Login.shape Login.ofValue? (loginPath server)
        let c ← hearLogin
        if c.username = expected.username ∧ c.password = expected.password then pure ()
        else throw (.loginFailed c.username)) := by
  simp only [login, hearLogin, bind_assoc, pure_bind]

/-- Answers that have a line each. -/
def OneLined (answers : List Answer) : Prop := ∀ a ∈ answers, '\n' ∉ a.text.toList

instance (answers : List Answer) : Decidable (OneLined answers) :=
  inferInstanceAs (Decidable (∀ a ∈ answers, '\n' ∉ a.text.toList))

theorem OneLined.payload {text : String} {credentials : Option Credentials}
    (h : OneLined (Prompts.plan (some text) credentials)) : '\n' ∉ text.toList :=
  h (.payload text) (by simp [Prompts.plan])

theorem OneLined.credentials {payload : Option String} {c : Credentials}
    (h : OneLined (Prompts.plan payload (some c))) :
    '\n' ∉ c.username.toList ∧ '\n' ∉ c.password.toList :=
  ⟨h (.username c.username) (by simp [Prompts.plan]),
    h (.password c.password) (by simp [Prompts.plan])⟩

/-- What is told of credentials, after anything else. -/
def credentialLines (c : Credentials) : String := c.username ++ "\n" ++ (c.password ++ "\n")

theorem encode_none (c : Credentials) :
    Prompts.encode (Prompts.plan none (some c)) = credentialLines c := by
  simp [Prompts.plan, Prompts.encode, Answer.text, credentialLines]

theorem encode_some (text : String) (c : Credentials) :
    Prompts.encode (Prompts.plan (some text) (some c)) = text ++ "\n" ++ credentialLines c := by
  simp [Prompts.plan, Prompts.encode, Answer.text, credentialLines]

theorem encode_payload (text : String) :
    Prompts.encode (Prompts.plan (some text) none) = text := rfl

theorem run_hearLogin {c : Credentials} (husername : Typed c.username)
    (hpassword : Typed c.password) {d : Desk} (hd : d.input = bytes (credentialLines c)) :
    Step.run hearLogin d = (.ok c, { d with input := [] }) := by
  have hinput : d.input = bytes (c.username ++ "\n") ++ (bytes (c.password ++ "\n") ++ []) := by
    rw [hd, credentialLines, bytes_append, List.append_nil]
  rw [hearLogin, Step.run_bind, run_readLine_line husername.single hinput,
    husername.dropLineEnds]
  dsimp only
  rw [Step.run_bind, run_readLine_line hpassword.single rfl, hpassword.dropLineEnds]
  rfl

/-- The answers are heard as they were told, the payload without the carriage returns at its end. -/
theorem run_hear {payload : Option String} {credentials : Option Credentials}
    (hlines : OneLined (Prompts.plan payload credentials))
    (hends : ∀ c ∈ credentials, c.username.toList.getLast? ≠ some '\r' ∧
      c.password.toList.getLast? ≠ some '\r')
    {d : Desk} (hd : d.input = bytes (Prompts.encode (Prompts.plan payload credentials))) :
    Step.run (hear payload.isSome credentials.isSome) d =
      (.ok (payload.map Text.dropLineEnds, credentials), { d with input := [] }) := by
  cases credentials with
  | none =>
    cases payload with
    | none =>
      have hempty : d.input = [] := hd
      obtain ⟨disk, input, output, made⟩ := d
      subst hempty
      rfl
    | some text =>
      simp only [hear, Option.isSome_some, Option.isSome_none, if_true, Bool.false_eq_true,
        if_false, bind_assoc, pure_bind]
      rw [Step.run_bind, run_readLine_end hlines.payload hd]
      rfl
  | some c =>
    have husername : Typed c.username := ⟨hlines.credentials.1, (hends c rfl).1⟩
    have hpassword : Typed c.password := ⟨hlines.credentials.2, (hends c rfl).2⟩
    cases payload with
    | none =>
      rw [encode_none] at hd
      simp only [hear, Option.isSome_some, Option.isSome_none, if_true, Bool.false_eq_true,
        if_false, bind_assoc, pure_bind]
      rw [Step.run_bind, run_hearLogin husername hpassword hd]
      rfl
    | some text =>
      rw [encode_some, bytes_append] at hd
      simp only [hear, Option.isSome_some, if_true, bind_assoc, pure_bind]
      rw [Step.run_bind, run_readLine_line hlines.payload hd]
      dsimp only
      rw [Step.run_bind, run_hearLogin husername hpassword rfl]
      rfl

/-! ## Telling answers apart -/

/-- The stretches between the line feeds of what is told. -/
def stretches : Option String → Option Credentials → List String
  | none, none => [""]
  | some text, none => [text]
  | none, some c => [c.username, c.password, ""]
  | some text, some c => [text, c.username, c.password, ""]

theorem parted_line {line : String} (h : '\n' ∉ line.toList) (rest : String) :
    Text.parted '\n' (line ++ "\n" ++ rest) = line :: Text.parted '\n' rest := by
  rw [show line ++ "\n" ++ rest = line ++ String.singleton '\n' ++ rest from rfl,
    Text.parted_append, Text.parted_of_not_mem h]
  rfl

theorem parted_credentialLines {c : Credentials}
    (h : '\n' ∉ c.username.toList ∧ '\n' ∉ c.password.toList) :
    Text.parted '\n' (credentialLines c) = [c.username, c.password, ""] := by
  have hlast : c.password ++ "\n" = c.password ++ "\n" ++ "" := by simp
  rw [credentialLines, parted_line h.1, hlast, parted_line h.2]
  rfl

theorem parted_encode {payload : Option String} {credentials : Option Credentials}
    (h : OneLined (Prompts.plan payload credentials)) :
    Text.parted '\n' (Prompts.encode (Prompts.plan payload credentials)) =
      stretches payload credentials := by
  cases payload with
  | none =>
    cases credentials with
    | none => rfl
    | some c => rw [encode_none, parted_credentialLines h.credentials, stretches]
  | some text =>
    cases credentials with
    | none => rw [encode_payload, Text.parted_of_not_mem h.payload, stretches]
    | some c =>
      rw [encode_some, parted_line h.payload, parted_credentialLines h.credentials, stretches]

/-- The answers of which nothing is to be heard. -/
def silent : List (List Answer) := [[], [.payload ""]]

theorem stretches_inj {payload payload' : Option String}
    {credentials credentials' : Option Credentials}
    (h : stretches payload credentials = stretches payload' credentials') :
    Prompts.plan payload credentials = Prompts.plan payload' credentials' ∨
      Prompts.plan payload credentials ∈ silent ∧ Prompts.plan payload' credentials' ∈ silent := by
  cases payload <;> cases credentials <;> cases payload' <;> cases credentials' <;>
    simp_all [stretches, Prompts.plan, silent]

theorem bytes_inj {a b : String} : bytes a = bytes b ↔ a = b := by
  refine ⟨fun h => ?_, congrArg bytes⟩
  have hb := fromUTF8?_bytes b
  rw [← h, fromUTF8?_bytes] at hb
  exact Option.some.inj hb

theorem bytes_silent {answers : List Answer} (h : answers ∈ silent) :
    bytes (Prompts.encode answers) = [] := by
  rw [silent, List.mem_cons, List.mem_singleton] at h
  rcases h with rfl | rfl <;> rfl

/-- What is told is what is heard. Answers of a line each are read back line by line: the payload
without the carriage returns that it ends in, the credentials as they are, and nothing is left;
a payload without credentials is ended by the end of the input. Two sets of answers are told in the
same way only if they are the same, or nothing is to be heard of both. -/
theorem hear_encode {payload : Option String} {credentials : Option Credentials}
    (hlines : OneLined (Prompts.plan payload credentials)) :
    let told := bytes (Prompts.encode (Prompts.plan payload credentials))
    ((∀ c ∈ credentials, c.username.toList.getLast? ≠ some '\r' ∧
        c.password.toList.getLast? ≠ some '\r') →
      ∀ d : Desk, d.input = told → ∃ heard,
        Step.run (hear payload.isSome credentials.isSome) d =
            (.ok (heard, credentials), { d with input := [] }) ∧
          Option.Rel HeardAs payload heard) ∧
      (credentials = none → (10 : UInt8) ∉ told) ∧
      ∀ payload' credentials', OneLined (Prompts.plan payload' credentials') →
        (told = bytes (Prompts.encode (Prompts.plan payload' credentials')) ↔
          Prompts.plan payload credentials = Prompts.plan payload' credentials' ∨
            Prompts.plan payload credentials ∈ silent ∧
              Prompts.plan payload' credentials' ∈ silent) := by
  intro told
  refine ⟨fun hends d hd => ⟨_, run_hear hlines hends hd, ?_⟩, ?_, ?_⟩
  · cases payload with
    | none => exact .none
    | some text => exact .some (heardAs_dropLineEnds hlines.payload)
  · rintro rfl
    cases payload with
    | none => exact List.not_mem_nil
    | some text => exact newline_notMem_bytes hlines.payload
  · intro payload' credentials' hlines'
    constructor
    · intro htold
      have hstretches : stretches payload credentials = stretches payload' credentials' := by
        rw [← parted_encode hlines, ← parted_encode hlines', bytes_inj.1 htold]
      exact stretches_inj hstretches
    · rintro (hplan | ⟨hsilent, hsilent'⟩)
      · simp only [told, hplan]
      · simp only [told, bytes_silent hsilent, bytes_silent hsilent']

/-- The carriage return of a confirmation is lost, but not what tells it from one without. -/
theorem hear_encode_yes :
    let c : Credentials := ⟨"user", "pass\rword"⟩
    let told := bytes (Prompts.encode (Prompts.plan (some "yes\r") (some c)))
    OneLined (Prompts.plan (some "yes\r") (some c)) ∧
      (∃ heard, Step.run (hear true true) ⟨.empty, told, .empty, 0⟩ =
          (.ok (some heard, some c), ⟨.empty, [], .empty, 0⟩) ∧ HeardAs "yes\r" heard) ∧
      told ≠ bytes (Prompts.encode (Prompts.plan (some "yes") (some c))) := by
  intro c told
  have hlines : OneLined (Prompts.plan (some "yes\r") (some c)) := by decide
  have hlines' : OneLined (Prompts.plan (some "yes") (some c)) := by decide
  have hends : ∀ c' ∈ some c, c'.username.toList.getLast? ≠ some '\r' ∧
      c'.password.toList.getLast? ≠ some '\r' := by
    rintro _ ⟨⟩
    decide
  obtain ⟨hheard, -, hapart⟩ := hear_encode hlines
  refine ⟨hlines, ?_, fun htold => ?_⟩
  · obtain ⟨heard, hrun, hrel⟩ := hheard hends ⟨.empty, told, .empty, 0⟩ rfl
    cases hrel with
    | some hline => exact ⟨_, hrun, hline⟩
  · rw [hapart _ _ hlines'] at htold
    revert htold
    decide

end Notary
end TrustTrial
