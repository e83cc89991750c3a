import ForkAgent.Messages.Protocol

/-!
# What a reference leads to

A file is named after a part of an id only, and a reference is read up to its first white space: messages
whose ids share that part take each other's place.
-/

namespace ForkAgent.Messages

open Effects

section Texts

variable {needle s : List Char}

theorem findAfter_eq_none : findAfter needle s = none ↔ ¬ needle <:+: s := by
  induction s with
  | nil => simp [findAfter]
  | cons c s ih =>
    rw [findAfter, List.infix_cons_iff, not_or, ← ih]
    split_ifs with hstart
    · simp [hstart]
    · simp [hstart]

theorem findAfter_append (needle s : List Char) (hne : needle ≠ []) : findAfter needle (needle ++ s) = some s := by
  cases needle with
  | nil => exact absurd rfl hne
  | cons c needle =>
    rw [List.cons_append, findAfter, if_pos]
    · simp
    · simp

theorem infix_of_brace {t : List Char} (h : FORK_MSG_SHORT_PREFIX <:+: FORK_MSG_PREFIX ++ Char.ofNat 0x7b :: t) :
    FORK_MSG_SHORT_PREFIX <:+: Char.ofNat 0x7b :: t := by
  have hshort : FORK_MSG_SHORT_PREFIX = ['#', ' ', 'F', ':'] := by decide
  have hlong : FORK_MSG_PREFIX = ['#', ' ', 'F', 'O', 'R', 'K', '_', 'M', 'S', 'G', ':'] := by decide
  rw [hshort, hlong] at h
  rw [hshort]
  simpa [List.infix_cons_iff] using h

theorem json_braces (msg : AgentMessage) :
    ∃ inner, msg.json = Char.ofNat 0x7b :: (inner ++ [Char.ofNat 0x7d]) := ⟨_, rfl⟩

/-- In a message that is written out, the text of a reference stands only where it does in the message. -/
theorem infix_written (msg : AgentMessage) :
    FORK_MSG_SHORT_PREFIX <:+: FORK_MSG_PREFIX ++ msg.json ↔ FORK_MSG_SHORT_PREFIX <:+: msg.json := by
  constructor
  · intro h
    obtain ⟨inner, hjson⟩ := json_braces msg
    rw [hjson] at h ⊢
    exact infix_of_brace h
  · intro h
    exact h.trans (List.suffix_append _ _).isInfix

theorem strip_of_ends {c e : Char} (hc : isSpace c = false) (he : isSpace e = false) (inner : List Char) :
    (strip (String.ofList (c :: (inner ++ [e])))).toList = c :: (inner ++ [e]) := by
  simp [strip, hc, he]

theorem strip_json (msg : AgentMessage) : (strip (String.ofList msg.json)).toList = msg.json := by
  obtain ⟨inner, hjson⟩ := json_braces msg
  rw [hjson]
  exact strip_of_ends (by decide) (by decide) inner

end Texts

section Calls

variable {d d' : TempDir} {msg : AgentMessage} {c : TempCall}

theorem tempCall_runs {r : Except Exn c.Value} :
    (tempCall c).Runs TempDir.step d r d' ↔ TempDir.step ⟨c, r⟩ d d' :=
  Program.runs_perform (σ := tempSignature) (c := c)

theorem step_error {e : Exn} (h : TempDir.step ⟨c, .error e⟩ d d') :
    d' = d ∧ (e.isOSError = true ∨ ∃ m, e = .valueError m) := by
  obtain hserve | ⟨hsame, e', he, hkind⟩ := h
  · exfalso
    cases c with
    | mkdir => cases hserve.1
    | writeText name text =>
      obtain ⟨-, mtime, hr, -⟩ := hserve
      cases hr
    | fileExists name => cases hserve.2
    | readText name =>
      obtain ⟨-, file, -, hr⟩ := hserve
      cases hr
    | dirExists => cases hserve.2
    | time =>
      obtain ⟨-, now, hr⟩ := hserve
      cases hr
    | glob =>
      obtain ⟨-, names, hr, -⟩ := hserve
      cases hr
    | mtime name =>
      obtain ⟨-, file, -, hr⟩ := hserve
      cases hr
    | unlink name => cases hserve.2.1
  · cases he
    exact ⟨hsame, hkind⟩

theorem step_ok {v : c.Value} (h : TempDir.step ⟨c, .ok v⟩ d d') : TempDir.serve ⟨c, .ok v⟩ d d' := by
  obtain hserve | ⟨-, e, he, -⟩ := h
  · exact hserve
  · cases he

/-- A message is encoded, and its file written, or the directory keeps the files that it has. -/
theorem encode_files {out : Except Exn (List Char)} (h : (encodeMessage msg).Runs TempDir.step d out d') :
    (d'.files = d.files ∧ ∃ e, out = .error e) ∨
      (out = .ok msg.reference ∧ IsFileName msg.shortId ∧
        ∃ mtime, d'.files = Function.update d.files msg.shortId (some ⟨msg.json, mtime⟩)) := by
  obtain ⟨ref, hbody, rfl⟩ | ⟨e, d₁, hbody, hraise⟩ := Program.runs_handle.mp h
  · obtain ⟨e, -, he⟩ | ⟨_, d₁, hmkdir, hrest⟩ := Program.runs_bind.mp hbody
    · cases he
    obtain ⟨e, -, he⟩ | ⟨_, d₂, hwrite, hreturn⟩ := Program.runs_bind.mp hrest
    · cases he
    obtain ⟨hname, mtime, -, hfile⟩ := step_ok (tempCall_runs.mp hwrite)
    have hmade := (step_ok (tempCall_runs.mp hmkdir)).2
    obtain ⟨href, rfl⟩ := hreturn
    refine .inr ⟨href, hname, mtime, ?_⟩
    rw [hfile, hmade]
    rfl
  · left
    have hfiles : d₁.files = d.files := by
      obtain ⟨e', hmkdir, -⟩ | ⟨_, d₂, hmkdir, hrest⟩ := Program.runs_bind.mp hbody
      · rw [(step_error (tempCall_runs.mp hmkdir)).1]
      · have hmade := (step_ok (tempCall_runs.mp hmkdir)).2
        obtain ⟨e', hwrite, -⟩ | ⟨_, d₃, -, hreturn⟩ := Program.runs_bind.mp hrest
        · rw [(step_error (tempCall_runs.mp hwrite)).1, hmade]
        · cases hreturn.1
    split_ifs at hraise
    · obtain ⟨rfl, rfl⟩ := hraise
      exact ⟨hfiles, _, rfl⟩
    · obtain ⟨rfl, rfl⟩ := hraise
      exact ⟨hfiles, _, rfl⟩

/-- The files of the second directory are files of the first. -/
def Shrinks (d d' : TempDir) : Prop := ∀ name file, d'.files name = some file → d.files name = some file

/-- The calls of the cleanup. -/
def isCleanupCall : TempCall → Bool
  | .mkdir | .writeText .. => false
  | _ => true

theorem step_shrinks {r : Except Exn c.Value} (hc : isCleanupCall c = true) (h : TempDir.step ⟨c, r⟩ d d') :
    Shrinks d d' := by
  obtain hserve | ⟨rfl, -⟩ := h
  · cases c with
    | unlink name =>
      obtain ⟨-, -, rfl⟩ := hserve
      intro other file hfile
      by_cases hname : other = name
      · simp [TempDir.setFile, hname] at hfile
      · simpa [TempDir.setFile, Function.update_of_ne hname] using hfile
    | mkdir => cases hc
    | writeText name text => cases hc
    | _ =>
      rw [hserve.1]
      exact fun _ _ h => h
  · exact fun _ _ h => h

theorem onlyCalls_tempCall (hc : isCleanupCall c = true) :
    (tempCall c).OnlyCalls fun c => isCleanupCall c = true :=
  Program.OnlyCalls.perform (σ := tempSignature) hc

theorem cleanupFile_calls (maxAgeSeconds now : Int) (name : List Char) :
    (cleanupFile maxAgeSeconds now name).OnlyCalls fun c => isCleanupCall c = true := by
  refine .handle (.bind (onlyCalls_tempCall rfl) fun isFile => ?_) fun e => ?_
  · split_ifs
    · refine .bind (onlyCalls_tempCall rfl) fun mtime => ?_
      split_ifs
      · exact .bind (onlyCalls_tempCall rfl) fun _ => trivial
      · trivial
    · trivial
  · split_ifs
    · trivial
    · trivial

theorem cleanupFiles_calls (maxAgeSeconds now : Int) (names : List (List Char)) :
    (cleanupFiles maxAgeSeconds now names).OnlyCalls fun c => isCleanupCall c = true := by
  induction names with
  | nil => trivial
  | cons name names ih => exact .bind (cleanupFile_calls _ _ name) fun _ => .bind ih fun _ => trivial

theorem cleanup_calls (maxAgeSeconds : Int) :
    (cleanupTempFiles maxAgeSeconds).OnlyCalls fun c => isCleanupCall c = true := by
  refine .bind (onlyCalls_tempCall rfl) fun made => ?_
  split_ifs
  · exact .bind (onlyCalls_tempCall rfl) fun now => .bind (onlyCalls_tempCall rfl) fun names =>
      cleanupFiles_calls _ _ names
  · trivial

theorem cleanup_shrinks {maxAgeSeconds : Int} {out : Except Exn Nat}
    (h : (cleanupTempFiles maxAgeSeconds).Runs TempDir.step d out d') : Shrinks d d' := by
  have hrespects : (cleanupTempFiles maxAgeSeconds).Respects TempDir.step Shrinks :=
    (cleanup_calls maxAgeSeconds).respects (fun _ _ _ h => h)
      (fun _ _ _ hab hbc name file h => hab name file (hbc name file h))
      fun _ _ _ _ hc hstep => step_shrinks hc hstep
  exact h.always (hrespects d)

end Calls

section Decoding

variable {loads : Loads} {d d' : TempDir} {out : Except Exn (Option DecodedMessage)}

/-- A file that is referred to is read as the message it holds, or as none, unless the file system
fails. -/
theorem readReferred_runs {name : List Char}
    (h : (readReferred loads name).Runs TempDir.step d out d') :
    out = .ok none ∨ TempDir.Fails out ∨
      ∃ file, d.files name = some file ∧ out = (loads file.text >>= createFromDict) := by
  obtain ⟨e, hexists, rfl⟩ | ⟨found, d₁, hexists, hrest⟩ := Program.runs_bind.mp h
  · exact .inr (.inl ⟨e, rfl, (step_error (tempCall_runs.mp hexists)).2⟩)
  obtain ⟨rfl, -⟩ := step_ok (tempCall_runs.mp hexists)
  split_ifs at hrest
  · obtain ⟨decoded, hbody, rfl⟩ | ⟨e, d₂, hbody, hraise⟩ := Program.runs_handle.mp hrest
    · obtain ⟨e, -, he⟩ | ⟨text, d₃, hread, hdecoded⟩ := Program.runs_bind.mp hbody
      · cases he
      · obtain ⟨rfl, file, hfile, htext⟩ := step_ok (tempCall_runs.mp hread)
        cases htext
        exact .inr (.inr ⟨file, hfile, (Program.runs_ofExcept.mp hdecoded).1⟩)
    · split_ifs at hraise
      · exact .inl hraise.1
      · obtain ⟨e', hread, he⟩ | ⟨text, d₃, hread, hdecoded⟩ := Program.runs_bind.mp hbody
        · cases he
          exact .inr (.inl ⟨e, hraise.1, (step_error (tempCall_runs.mp hread)).2⟩)
        · obtain ⟨rfl, file, hfile, htext⟩ := step_ok (tempCall_runs.mp hread)
          cases htext
          exact .inr (.inr ⟨file, hfile, hraise.1.trans (Program.runs_ofExcept.mp hdecoded).1⟩)
  · exact .inl hrest.1

section Find

variable {raw suffix : List Char} (hfind : findAfter FORK_MSG_SHORT_PREFIX raw = some suffix)
include hfind

theorem decode_of_blank (hname : referredName suffix = none) : decodeMessage loads raw = .ret none := by
  unfold decodeMessage
  rw [hfind]
  simp only [hname]
  rfl

theorem decode_of_name {name : List Char} (hname : referredName suffix = some name) :
    decodeMessage loads raw = readReferred loads name := by
  unfold decodeMessage
  rw [hfind]
  simp only [hname]

end Find

theorem find_reference (msg : AgentMessage) :
    findAfter FORK_MSG_SHORT_PREFIX msg.reference = some msg.shortId := findAfter_append _ _ (by decide)

theorem decode_reference (msg : AgentMessage) {raw : List Char} (hraw : raw = msg.reference)
    (h : (decodeMessage loads raw).Runs TempDir.step d out d') :
    out = .ok none ∨ TempDir.Fails out ∨ ∃ name file, referredName msg.shortId = some name ∧
      d.files name = some file ∧ out = (loads file.text >>= createFromDict) := by
  have hfind := find_reference msg
  rw [← hraw] at hfind
  cases hname : referredName msg.shortId with
  | none =>
    rw [decode_of_blank hfind hname] at h
    exact .inl h.1
  | some name =>
    rw [decode_of_name hfind hname] at h
    obtain hnone | hfails | ⟨file, hfile, hout⟩ := readReferred_runs h
    · exact .inl hnone
    · exact .inr (.inl hfails)
    · exact .inr (.inr ⟨name, file, rfl, hfile, hout⟩)

end Decoding

section Sequences

variable {loads : Loads} {msgs : List AgentMessage} {d d' : TempDir}

/-- The operation encodes one of the messages, or cleans up. -/
def ProtocolOp.Sends (msgs : List AgentMessage) : ProtocolOp → Prop
  | encode msg => msg ∈ msgs
  | cleanup _ => True

/-- The references of the messages lead to them or to nothing, unless the file system fails, and each
message that is written out is read back. -/
structure NeverCrosses (loads : Loads) (msgs : List AgentMessage) : Prop where
  references : ∀ (tr : List protocolSystem.Performed) d, protocolSystem.Performs {} tr d →
    (∀ e ∈ tr, ProtocolOp.Sends msgs e.op) → ∀ msg ref before after,
      (⟨.encode msg, before, .ok ref, after⟩ : protocolSystem.Performed) ∈ tr →
        ∀ out d', (decodeMessage loads ref).Runs TempDir.step d out d' →
          out = .ok (some msg.decoded) ∨ out = .ok none ∨ TempDir.Fails out
  written : ∀ msg ∈ msgs, ∀ d out d', (decodeMessage loads (FORK_MSG_PREFIX ++ msg.json)).Runs TempDir.step d out d' →
    out = .ok (some msg.decoded)

/-- No message is referred to by the part of its id that another one is filed under, and none has the
text of a reference in it. -/
structure Distinct (msgs : List AgentMessage) : Prop where
  names : ∀ msg ∈ msgs, ∀ msg' ∈ msgs, IsFileName msg.shortId → IsFileName msg'.shortId →
    referredName msg.shortId = some msg'.shortId → msg = msg'
  texts : ∀ msg ∈ msgs, ¬ FORK_MSG_SHORT_PREFIX <:+: msg.json

/-- Every file holds one of the messages, and is named after it. -/
def Holds (msgs : List AgentMessage) (d : TempDir) : Prop :=
  ∀ name file, d.files name = some file → IsFileName name ∧ ∃ msg ∈ msgs, msg.shortId = name ∧ file.text = msg.json

theorem Holds.encode {msg : AgentMessage} (h : Holds msgs d) (hmsg : msg ∈ msgs) {out : Except Exn (List Char)}
    (hruns : (encodeMessage msg).Runs TempDir.step d out d') : Holds msgs d' := by
  obtain ⟨hfiles, -⟩ | ⟨-, hname, mtime, hfiles⟩ := encode_files hruns
  · intro name file hfile
    rw [hfiles] at hfile
    exact h name file hfile
  · intro name file hfile
    rw [hfiles] at hfile
    by_cases hsame : name = msg.shortId
    · rw [hsame, Function.update_self] at hfile
      cases hfile
      rw [hsame]
      exact ⟨hname, msg, hmsg, rfl, rfl⟩
    · rw [Function.update_of_ne hsame] at hfile
      exact h name file hfile

theorem Holds.shrinks (h : Holds msgs d) (hshrinks : Shrinks d d') : Holds msgs d' := by
  intro name file hfile
  exact h name file (hshrinks name file hfile)

theorem holds_of_performs {tr : List protocolSystem.Performed} (h : protocolSystem.Performs {} tr d)
    (hsends : ∀ e ∈ tr, ProtocolOp.Sends msgs e.op) : Holds msgs d := by
  induction h with
  | nil =>
    intro name file hfile
    cases hfile
  | snoc before o hruns ih =>
    have hbefore := ih fun e he => hsends e (List.mem_append_left _ he)
    have hop : ProtocolOp.Sends msgs o := hsends _ (List.mem_append_right _ (List.mem_singleton_self _))
    cases o with
    | encode msg => exact hbefore.encode hop hruns
    | cleanup maxAgeSeconds => exact hbefore.shrinks (cleanup_shrinks hruns)

/-- The directory after a message was encoded. -/
def encodedIn (msg : AgentMessage) (d : TempDir) : TempDir :=
  TempDir.setFile { d with made := true } msg.shortId (some ⟨msg.json, 0⟩)

theorem encode_runs {msg : AgentMessage} (hname : IsFileName msg.shortId) (d : TempDir) :
    (encodeMessage msg).Runs TempDir.step d (.ok msg.reference) (encodedIn msg d) := by
  have hmkdir : TempDir.step ⟨.mkdir, .ok ()⟩ d { d with made := true } := .inl ⟨rfl, rfl⟩
  have hwrite : TempDir.step ⟨.writeText msg.shortId msg.json, .ok ()⟩ { d with made := true } (encodedIn msg d) :=
    .inl ⟨hname, 0, rfl, rfl⟩
  refine Program.Runs.handle_ok (Program.Runs.bind (tempCall_runs.mpr hmkdir) ?_)
  exact Program.Runs.bind (tempCall_runs.mpr hwrite) ⟨rfl, rfl⟩

theorem readReferred_message {name : List Char} {file : TempFile} {msg : AgentMessage}
    (hfile : d.files name = some file) (hread : loads file.text = .ok (.obj msg.data)) :
    (readReferred loads name).Runs TempDir.step d (.ok (some msg.decoded)) d := by
  have hexists : TempDir.step ⟨.fileExists name, .ok true⟩ d d := .inl ⟨rfl, by rw [hfile]; rfl⟩
  have htext : TempDir.step ⟨.readText name, .ok file.text⟩ d d := .inl ⟨rfl, file, hfile, rfl⟩
  have hdecoded : (loads file.text >>= createFromDict) = .ok (some msg.decoded) := by
    rw [hread]
    exact createFromDict_data msg
  refine Program.Runs.bind (tempCall_runs.mpr hexists) (Program.Runs.handle_ok ?_)
  exact Program.Runs.bind (tempCall_runs.mpr htext) (Program.runs_ofExcept.mpr ⟨hdecoded.symm, rfl⟩)

theorem decode_written {msg : AgentMessage} (hloads : loads msg.json = .ok (.obj msg.data))
    (hnone : ¬ FORK_MSG_SHORT_PREFIX <:+: msg.json) :
    decodeMessage loads (FORK_MSG_PREFIX ++ msg.json) = .ret (some msg.decoded) := by
  have hshort : findAfter FORK_MSG_SHORT_PREFIX (FORK_MSG_PREFIX ++ msg.json) = none := by
    rw [findAfter_eq_none, infix_written]
    exact hnone
  have hlong : findAfter FORK_MSG_PREFIX (FORK_MSG_PREFIX ++ msg.json) = some msg.json :=
    findAfter_append _ _ (by decide)
  have hread : (loads msg.json >>= createFromDict) = .ok (some msg.decoded) := by
    rw [hloads]
    exact createFromDict_data msg
  unfold decodeMessage
  rw [hshort, hlong]
  simp only [strip_json, hread]
  rfl

theorem performs_two {msg msg' : AgentMessage} (hmsg : msg ∈ msgs) (hmsg' : msg' ∈ msgs)
    (hname : IsFileName msg.shortId) (hname' : IsFileName msg'.shortId) :
    ∃ tr : List protocolSystem.Performed, protocolSystem.Performs {} tr (encodedIn msg' (encodedIn msg {})) ∧
      (∀ e ∈ tr, ProtocolOp.Sends msgs e.op) ∧
      (⟨.encode msg, {}, .ok msg.reference, encodedIn msg {}⟩ : protocolSystem.Performed) ∈ tr := by
  have hnone : protocolSystem.Performs {} [] {} := .nil
  refine ⟨_, (hnone.snoc (ProtocolOp.encode msg) (encode_runs hname _)).snoc (ProtocolOp.encode msg')
    (encode_runs hname' _), ?_, ?_⟩
  · intro e he
    obtain rfl | rfl : e = _ ∨ e = _ := by simpa only [List.nil_append, List.mem_append, List.mem_singleton] using he
    · exact hmsg
    · exact hmsg'
  · exact List.mem_append_left _ (List.mem_singleton_self _)

theorem decode_file {msg msg' : AgentMessage} {raw : List Char} (hraw : raw = msg.reference)
    (hrefers : referredName msg.shortId = some msg'.shortId) {mtime : Int}
    (hfile : d.files msg'.shortId = some ⟨msg'.json, mtime⟩) (hloads : loads msg'.json = .ok (.obj msg'.data)) :
    (decodeMessage loads raw).Runs TempDir.step d (.ok (some msg'.decoded)) d := by
  have hfind := find_reference msg
  rw [← hraw] at hfind
  rw [decode_of_name hfind hrefers]
  exact readReferred_message hfile hloads

theorem names_of_neverCrosses (hloads : ∀ msg ∈ msgs, loads msg.json = .ok (.obj msg.data))
    (h : NeverCrosses loads msgs) {msg msg' : AgentMessage} (hmsg : msg ∈ msgs) (hmsg' : msg' ∈ msgs)
    (hname : IsFileName msg.shortId) (hname' : IsFileName msg'.shortId)
    (hrefers : referredName msg.shortId = some msg'.shortId) : msg = msg' := by
  obtain ⟨tr, hperforms, hsends, hmem⟩ := performs_two hmsg hmsg' hname hname'
  obtain ⟨raw, hraw⟩ : ∃ raw, raw = msg.reference := ⟨_, rfl⟩
  rw [← hraw] at hmem
  have hfile : (encodedIn msg' (encodedIn msg {})).files msg'.shortId = some ⟨msg'.json, 0⟩ :=
    Function.update_self ..
  have hread := decode_file hraw hrefers hfile (hloads msg' hmsg')
  obtain hout | hout | ⟨e, hout, -⟩ := h.references tr _ hperforms hsends msg _ _ _ hmem _ _ hread
  · exact (decoded_injective (Option.some.inj (Except.ok.inj hout))).symm
  · cases hout
  · cases hout

theorem texts_of_neverCrosses (h : NeverCrosses loads msgs) {msg : AgentMessage} (hmsg : msg ∈ msgs) :
    ¬ FORK_MSG_SHORT_PREFIX <:+: msg.json := by
  intro hwithin
  rw [← infix_written] at hwithin
  obtain ⟨suffix, hfind⟩ : ∃ suffix, findAfter FORK_MSG_SHORT_PREFIX (FORK_MSG_PREFIX ++ msg.json) = some suffix := by
    cases hfind : findAfter FORK_MSG_SHORT_PREFIX (FORK_MSG_PREFIX ++ msg.json) with
    | none => exact absurd hwithin (findAfter_eq_none.mp hfind)
    | some suffix => exact ⟨suffix, rfl⟩
  have hruns : (decodeMessage loads (FORK_MSG_PREFIX ++ msg.json)).Runs TempDir.step {} (.ok none) {} := by
    cases hname : referredName suffix with
    | none =>
      rw [decode_of_blank hfind hname]
      exact ⟨rfl, rfl⟩
    | some name =>
      rw [decode_of_name hfind hname]
      have hexists : TempDir.step ⟨.fileExists name, .ok false⟩ {} {} := .inl ⟨rfl, rfl⟩
      exact Program.Runs.bind (tempCall_runs.mpr hexists) ⟨rfl, rfl⟩
  cases h.written msg hmsg {} _ {} hruns

/-- References cross nowhere exactly among messages that are filed apart, and have no reference in them. -/
theorem neverCrosses_iff (hloads : ∀ msg ∈ msgs, loads msg.json = .ok (.obj msg.data)) :
    NeverCrosses loads msgs ↔ Distinct msgs := by
  constructor
  · intro h
    exact ⟨fun msg hmsg msg' hmsg' hname hname' hrefers =>
      names_of_neverCrosses hloads h hmsg hmsg' hname hname' hrefers, fun msg hmsg => texts_of_neverCrosses h hmsg⟩
  · intro h
    constructor
    · intro tr d hperforms hsends msg ref before after hmem out d' hruns
      have hmsg : msg ∈ msgs := hsends _ hmem
      have hencoded := (hperforms.of_mem (I := fun _ => True) trivial (fun _ _ _ _ _ _ => trivial) hmem).2
      obtain ⟨-, e, he⟩ | ⟨href, hname, -⟩ := encode_files hencoded
      · cases he
      · obtain hnone | hfails | ⟨name, file, hrefers, hfile, hout⟩ := decode_reference msg (Except.ok.inj href) hruns
        · exact .inr (.inl hnone)
        · exact .inr (.inr hfails)
        · obtain ⟨hname', msg', hmsg', rfl, htext⟩ := holds_of_performs hperforms hsends name file hfile
          rw [h.names msg hmsg msg' hmsg' hname hname' hrefers]
          rw [htext, hloads msg' hmsg'] at hout
          exact .inl (hout.trans (createFromDict_data msg'))
    · intro msg hmsg d out d' hruns
      rw [decode_written (hloads msg hmsg) (h.texts msg hmsg)] at hruns
      exact hruns.1

section Example

def task (id payload : String) : AgentMessage :=
  { id := id, fromAgent := "leader:0", toAgent := "worker:0", messageType := .command, payload, createdAt := 0 }

/-- A reader of the texts of some messages. -/
def loadsOf (msgs : List AgentMessage) : Loads := fun text =>
  match msgs.find? fun msg => msg.json == text with
  | some msg => .ok (.obj msg.data)
  | none => .error (.jsonDecodeError "Expecting value")

def sharing : List AgentMessage := [task "deadbeef-1" "first", task "deadbeef-2" "second"]

theorem loadsOf_sharing : ∀ msg ∈ sharing, loadsOf sharing msg.json = .ok (.obj msg.data) := by
  intro msg hmsg
  obtain rfl | rfl : msg = _ ∨ msg = _ := by simpa [sharing] using hmsg
  · rfl
  · rfl

/-- Two messages whose ids share their first eight characters. -/
theorem sharing_crosses : ¬ ∀ (loads : Loads) (msgs : List AgentMessage),
    (∀ msg ∈ msgs, loads msg.json = .ok (.obj msg.data)) → NeverCrosses loads msgs := by
  intro h
  have hsame : task "deadbeef-1" "first" = task "deadbeef-2" "second" :=
    names_of_neverCrosses loadsOf_sharing (h _ _ loadsOf_sharing) (by simp [sharing]) (by simp [sharing])
      (by decide) (by decide) (by decide)
  revert hsame
  decide

theorem not_distinct_sharing : ¬ Distinct sharing := by
  intro h
  have hsame : task "deadbeef-1" "first" = task "deadbeef-2" "second" :=
    h.names _ (by simp [sharing]) _ (by simp [sharing]) (by decide) (by decide) (by decide)
  revert hsame
  decide

/-- Two messages whose ids differ in their first eight characters. -/
def differing : List AgentMessage := [task "deadbeef-1" "first", task "feedbeef-2" "second"]

theorem loadsOf_differing : ∀ msg ∈ differing, loadsOf differing msg.json = .ok (.obj msg.data) := by
  intro msg hmsg
  obtain rfl | rfl : msg = _ ∨ msg = _ := by simpa [differing] using hmsg
  · rfl
  · rfl

theorem distinct_differing : Distinct differing := by
  have hnames : ∀ msg ∈ differing, ∀ msg' ∈ differing,
      referredName msg.shortId = some msg'.shortId → msg = msg' := by decide
  have htexts : ∀ msg ∈ differing, ¬ FORK_MSG_SHORT_PREFIX <:+: msg.json := by decide +kernel
  exact ⟨fun msg hmsg msg' hmsg' _ _ => hnames msg hmsg msg' hmsg', htexts⟩

theorem neverCrosses_sharing :
    NeverCrosses (loadsOf differing) differing ∧ ¬ NeverCrosses (loadsOf sharing) sharing := by
  constructor
  · exact (neverCrosses_iff loadsOf_differing).mpr distinct_differing
  · rw [neverCrosses_iff loadsOf_sharing]
    exact not_distinct_sharing

end Example

end Sequences

end ForkAgent.Messages
