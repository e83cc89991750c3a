import ForkAgent.Obsidian.Import

/-!
# An exported note is imported as it was

The front matter ends at the first line that starts with a fence, and the heading is the first line of the
body, so that neither is taken for a part of the content, whatever the content is.
-/

namespace ForkAgent.Obsidian

open Effects Text Memory

section Trimmed

/-- A text that is not empty and has no white space around it. -/
structure Trimmed (s : String) : Prop where
  nonempty : s ≠ ""
  trimmed : strip s = s

variable {s : String}

theorem Trimmed.ends (h : Trimmed s) :
    (∀ c ∈ s.toList.head?, isSpace c = false) ∧ ∀ c ∈ s.toList.getLast?, isSpace c = false := by
  have hlist : (s.toList.dropWhile isSpace).reverse.dropWhile isSpace = s.toList.reverse := by
    have htrimmed := congrArg (List.reverse ∘ String.toList) h.trimmed
    simpa [strip] using htrimmed
  have hlength : s.toList.dropWhile isSpace = s.toList := by
    have hle := List.length_dropWhile_le isSpace (s.toList.dropWhile isSpace).reverse
    rw [hlist, List.length_reverse, List.length_reverse] at hle
    exact (List.dropWhile_suffix isSpace).eq_of_length_le hle
  rw [hlength] at hlist
  constructor
  · intro c hc
    cases hs : s.toList with
    | nil => simp [hs] at hc
    | cons d cs =>
      rw [hs] at hc hlength
      by_contra hspace
      have hcd : d = c := by simpa using hc
      rw [List.dropWhile_cons_of_pos (by simpa [hcd] using hspace)] at hlength
      have hle := List.length_dropWhile_le isSpace cs
      rw [hlength, List.length_cons] at hle
      omega
  · intro c hc
    rw [List.getLast?_eq_head?_reverse] at hc
    cases hs : s.toList.reverse with
    | nil => simp [hs] at hc
    | cons d cs =>
      rw [hs] at hc hlist
      by_contra hspace
      have hcd : d = c := by simpa using hc
      rw [List.dropWhile_cons_of_pos (by simpa [hcd] using hspace)] at hlist
      have hle := List.length_dropWhile_le isSpace cs
      rw [hlist, List.length_cons] at hle
      omega

theorem strip_append {cs after : List Char} (hhead : ∀ c ∈ cs.head?, isSpace c = false)
    (hlast : ∀ c ∈ cs.getLast?, isSpace c = false) (hne : cs ≠ []) (hafter : ∀ c ∈ after, isSpace c = true) :
    strip (String.ofList (cs ++ after)) = String.ofList cs := by
  have hfront : (cs ++ after).dropWhile isSpace = cs ++ after := by
    cases cs with
    | nil => exact absurd rfl hne
    | cons c cs =>
      rw [List.cons_append, List.dropWhile_cons_of_neg (by simp [hhead c rfl])]
  have hback : (after.reverse ++ cs.reverse).dropWhile isSpace = cs.reverse := by
    rw [List.dropWhile_append_of_pos (by simpa using hafter)]
    cases hcs : cs.reverse with
    | nil => rfl
    | cons c rest =>
      have hc : isSpace c = false := hlast c (by rw [List.getLast?_eq_head?_reverse, hcs]; rfl)
      rw [List.dropWhile_cons_of_neg (by simp [hc])]
  rw [strip, String.toList_ofList, hfront, List.reverse_append, hback, List.reverse_reverse]

end Trimmed

section Yaml

/-- A text that starts with a character other than white space, and in which no line starts with a fence. -/
structure Fenced (text : String) : Prop where
  starts : ∃ c, text.toList.head? = some c ∧ isSpace c = false
  lines : ∀ line ∈ text.toList.splitOn '\n', ¬ "---".toList <+: line
  carriageReturn : '\r' ∉ text.toList
  null : '\x00' ∉ text.toList

/-- What is relied upon of YAML: it writes a map as a text that ends with a line break, and reads the map
back from the text. -/
def Yaml.Keeps (yaml : Yaml) (m : JsonObject) : Prop :=
  ∃ text : String, yaml.dump m = text ++ "\n" ∧ Fenced text ∧
    ∃ loaded, yaml.safeLoad text = .ok (.obj loaded) ∧ ∀ key, JsonObject.get loaded key = m.get key

end Yaml

section Match

variable {fm body : List Char}

theorem readNewlines_eq {cs : List Char} (h : '\r' ∉ cs) : readNewlines cs = cs := by
  induction cs with
  | nil => rfl
  | cons c cs ih =>
    rw [List.mem_cons, not_or] at h
    rw [readNewlines, ih h.2]
    · intro rest hc
      exact absurd hc.symm h.1
    · intro hc
      exact absurd hc.symm h.1

theorem first_opening {rest : List Char} (h : ∃ c, rest.head? = some c ∧ isSpace c = false) :
    yamlOpening.First ("---\n".toList ++ rest) "---\n".toList rest := by
  obtain ⟨c, hhead, hc⟩ := h
  cases rest with
  | nil => cases hhead
  | cons d rest =>
    have hd : isSpace d = false := by
      cases hhead
      exact hc
    have hnl : d ≠ '\n' := by
      intro heq
      rw [heq] at hd
      revert hd
      decide
    have hlit := Pattern.first_lit "---".toList ('\n' :: d :: rest)
    have hinner : (Pattern.seq (.many isSpace 0) (.one (· = '\n'))).First ('\n' :: d :: rest) ['\n'] (d :: rest) := by
      have hspace : isSpace '\n' = true := by decide
      simp [Pattern.First, runs, hspace, hd, hnl]
    exact hlit.seq hinner

theorem first_closing (h : body.head? = some '#') :
    yamlClosing.First ("\n---\n".toList ++ body) "\n---\n".toList body := by
  have hlit := Pattern.first_lit "\n---".toList ('\n' :: body)
  have hspace : ∀ c ∈ body.head?, isSpace c = false := by
    intro c hc
    rw [h] at hc
    cases hc
    decide
  have hmany : (Pattern.many isSpace 0).First (['\n'] ++ body) ['\n'] body :=
    Pattern.first_many (by simp; decide) hspace (Nat.zero_le _)
  have hopt : (Pattern.one (· = '\n')).opt.First body [] body :=
    Pattern.first_opt_of_ways (Pattern.ways_one_of_head (by
      intro c hc
      rw [h] at hc
      cases hc
      decide))
  exact hlit.seq (hmany.seq hopt)

theorem exists_line {before rest : List Char} :
    ∃ line ∈ (before ++ '\n' :: '-' :: '-' :: '-' :: rest).splitOn '\n', "---".toList <+: line := by
  obtain ⟨line, lines, hlines⟩ : ∃ line lines, rest.splitOn '\n' = line :: lines :=
    List.exists_cons_of_ne_nil (List.splitOn_ne_nil _ _)
  have hdash : ('-' == '\n') = false := rfl
  have hfence : ('-' :: '-' :: '-' :: rest).splitOn '\n' = ('-' :: '-' :: '-' :: line) :: lines := by
    simp [List.splitOn_cons_eq_if_modifyHead, hdash, hlines]
  refine ⟨'-' :: '-' :: '-' :: line, ?_, List.prefix_append "---".toList line⟩
  rw [List.splitOn_append_cons_self, hfence]
  simp

theorem ways_closing_of_fenced {m₁ m₂ r : List Char}
    (hfences : ∀ line ∈ fm.splitOn '\n', ¬ "---".toList <+: line) (hsplit : fm = m₁ ++ m₂) (hne : m₂ ≠ []) : yamlClosing.ways (m₂ ++ '\n' :: r) = [] := by
  have hlit : "\n---".toList = ['\n', '-', '-', '-'] := rfl
  have hnot : ¬ "\n---".toList <+: m₂ ++ '\n' :: r := by
    rw [hlit]
    intro hstarts
    match m₂, hne with
    | [_], _ => simp [List.cons_prefix_cons] at hstarts
    | [_, _], _ => simp [List.cons_prefix_cons] at hstarts
    | [_, _, _], _ => simp [List.cons_prefix_cons] at hstarts
    | a :: b :: c :: d :: rest, _ =>
      simp only [List.cons_append, List.cons_prefix_cons] at hstarts
      obtain ⟨rfl, rfl, rfl, rfl, -⟩ := hstarts
      obtain ⟨line, hline, hfence⟩ :
          ∃ line ∈ (m₁ ++ '\n' :: '-' :: '-' :: '-' :: rest).splitOn '\n', "---".toList <+: line := exists_line
      rw [hsplit] at hfences
      exact hfences line hline hfence
  rw [yamlClosing, Pattern.ways, Pattern.ways_lit_of_not_prefix hnot]
  rfl

theorem matchYaml_fenced {text : String} (hfenced : Fenced text) (hbody : body.head? = some '#') :
    matchYaml ("---\n".toList ++ (text.toList ++ ("\n---\n".toList ++ body))) = some (text.toList, body) := by
  obtain ⟨c, hhead, hc⟩ := hfenced.starts
  apply head?_groups
  · apply first_opening
    exact ⟨c, by rw [List.head?_append, hhead]; rfl, hc⟩
  · intro m₁ m₂ hsplit hne
    exact ways_closing_of_fenced hfenced.lines hsplit hne
  · exact first_closing hbody

end Match

section Heading

variable {title rest : List Char}

theorem stripH1Title_of_way {c : Char} {cs : List Char} {way : List Char × List Char}
    (h : (h1Pattern.ways (c :: cs)).head? = some way) : stripH1Title true (c :: cs) = way.2 := by
  rw [stripH1Title, if_pos rfl, h]

theorem stripH1Title_heading (hne : title ≠ []) (hhead : ∀ c ∈ title.head?, isSpace c = false)
    (hline : '\n' ∉ title) :
    stripH1Title true ("# ".toList ++ (title ++ ("\n\n".toList ++ rest))) = rest := by
  have hspaces : (Pattern.many isSpace 1).First ([' '] ++ (title ++ ("\n\n".toList ++ rest))) [' ']
      (title ++ ("\n\n".toList ++ rest)) := by
    apply Pattern.first_many
    · intro c hc
      rw [List.mem_singleton.mp hc]
      decide
    · intro c hc
      rw [List.head?_append_of_ne_nil _ hne] at hc
      exact hhead c hc
    · exact Nat.le_refl 1
  have htitle : (Pattern.many (· ≠ '\n') 1).First (title ++ ("\n\n".toList ++ rest)) title
      ("\n\n".toList ++ rest) := by
    apply Pattern.first_many
    · intro c hc
      simp only [decide_eq_true_eq]
      intro heq
      exact hline (heq ▸ hc)
    · intro c hc
      cases hc
      rfl
    · exact List.length_pos_of_ne_nil hne
  have hend : (Pattern.seq (.one (· = '\n')) (Pattern.opt (.one (· = '\n')))).First ("\n\n".toList ++ rest)
      "\n\n".toList rest :=
    (Pattern.first_one rfl).seq (Pattern.first_one rfl).opt
  have hfirst : h1Pattern.First ("# ".toList ++ (title ++ ("\n\n".toList ++ rest)))
      (['#'] ++ ([' '] ++ (title ++ "\n\n".toList))) rest :=
    (Pattern.first_one rfl).seq (hspaces.seq (htitle.seq hend))
  exact stripH1Title_of_way (c := '#') hfirst

/-- The title is the heading. -/
theorem extractH1Title_heading (hne : title ≠ []) (hhead : ∀ c ∈ title.head?, isSpace c = false)
    (hlast : ∀ c ∈ title.getLast?, isSpace c = false) (hline : '\n' ∉ title) :
    extractH1Title ("# ".toList ++ (title ++ ("\n\n".toList ++ rest))) = some (String.ofList title) := by
  have hsplit : ("# ".toList ++ (title ++ ("\n\n".toList ++ rest))).splitOn '\n' =
      ("# ".toList ++ title) :: ('\n' :: rest).splitOn '\n' := by
    have hmem : '\n' ∉ "# ".toList ++ title := by
      rw [List.mem_append, not_or]
      exact ⟨by decide, hline⟩
    rw [← List.append_assoc]
    exact List.splitOn_append_cons_self_of_not_mem hmem _
  have htitle : strip (String.ofList title) = String.ofList title := by
    have htrimmed : strip (String.ofList (title ++ [])) = String.ofList title :=
      strip_append hhead hlast hne (by simp)
    rwa [List.append_nil] at htrimmed
  have hstrip : strip (String.ofList ("# ".toList ++ title)) = String.ofList ("# ".toList ++ title) := by
    have htrimmed : strip (String.ofList ("# ".toList ++ title ++ [])) = String.ofList ("# ".toList ++ title) :=
      strip_append (by intro c hc; cases hc; decide)
        (by rw [List.getLast?_append_of_ne_nil _ hne]; exact hlast) (by simp) (by simp)
    rwa [List.append_nil] at htrimmed
  have hstarts : "# ".toList.isPrefixOf (String.ofList ("# ".toList ++ title)).toList = true := by
    rw [String.toList_ofList (l := "# ".toList ++ title), List.isPrefixOf_iff_prefix]
    exact List.prefix_append "# ".toList title
  have hdrop : (String.ofList ("# ".toList ++ title)).toList.drop 2 = title := by
    rw [String.toList_ofList]
    rfl
  rw [extractH1Title, hsplit, List.map_cons, hstrip, List.find?_cons, hstarts]
  simp only [Option.map_some, hdrop, htitle]

end Heading

section Rendered

variable {svc : ObsidianExportService} {o : Observation} {title text : String}

theorem get_frontmatter (o : Observation) (created : Option String) :
    JsonObject.get (frontmatter o created) "topic_key" = .ofText o.val.topicKey ∧
      JsonObject.get (frontmatter o created) "project" = .ofText o.val.project ∧
        JsonObject.get (frontmatter o created) "type" = .ofText o.val.type := by
  unfold frontmatter
  cases o.val.type <;> cases o.val.project <;> cases o.val.topicKey <;> cases created <;>
    exact ⟨rfl, rfl, rfl⟩

theorem given_of_ne {s : String} (h : s ≠ "") : given (some s) = some s := by
  simp [given, Option.filter, h]

theorem heading_of_title (htitle : o.val.title = some title) (hne : title ≠ "") : heading o = title := by
  rw [heading, htitle, given_of_ne hne]
  rfl

theorem toList_render (hrender : svc.render o = .ok text) (hyaml : ∀ created, svc.created o = .ok created → svc.yaml.Keeps (frontmatter o created))
    (htitle : o.val.title = some title) (hne : title ≠ "") :
    ∃ fm loaded, Fenced fm ∧ svc.yaml.safeLoad fm = .ok (.obj loaded) ∧
      (∀ key, ∃ created, JsonObject.get loaded key = JsonObject.get (frontmatter o created) key) ∧
      text.toList = "---\n".toList ++ (fm.toList ++ ("\n---\n".toList ++ ("# ".toList ++ (title.toList ++
        ("\n\n".toList ++ (o.val.content.toList ++ ['\n'])))))) := by
  obtain ⟨created, hcreated, htext⟩ := bind_eq_ok.mp hrender
  obtain ⟨fm, hdump, hfenced, loaded, hload, hget⟩ := hyaml created hcreated
  refine ⟨fm, loaded, hfenced, hload, fun key => ⟨created, hget key⟩, ?_⟩
  rw [← Except.ok.inj htext, hdump, heading_of_title htitle hne]
  simp

/-- A title on one line, without white space around it and without null characters. -/
structure PlainTitle (title : String) : Prop extends Trimmed title where
  lineFeed : '\n' ∉ title.toList
  carriageReturn : '\r' ∉ title.toList
  null : '\x00' ∉ title.toList

/-- Content without white space around it and without carriage returns. -/
structure PlainContent (content : String) : Prop extends Trimmed content where
  carriageReturn : '\r' ∉ content.toList

/-- The note is read as its front matter and its body, and the body as its title and its content. -/
theorem parse_rendered (hrender : svc.render o = .ok text)
    (hyaml : ∀ created, svc.created o = .ok created → svc.yaml.Keeps (frontmatter o created)) (htitle : o.val.title = some title)
    (hplain : PlainTitle title) (hcontent : PlainContent o.val.content) :
    0 ∉ bytesOf text.toUTF8 ∧ ∃ fm loaded body, matchYaml (readNewlines text.toList) = some (fm.toList, body) ∧
      svc.yaml.safeLoad fm = .ok (.obj loaded) ∧
      (∀ key, ∃ created, JsonObject.get loaded key = JsonObject.get (frontmatter o created) key) ∧
      strip (String.ofList (stripH1Title true body)) = o.val.content ∧ extractH1Title body = some title := by
  obtain ⟨fm, loaded, hfenced, hload, hget, htext⟩ := toList_render hrender hyaml htitle hplain.nonempty
  obtain ⟨hhead, hlast⟩ := hplain.ends
  have hne : title.toList ≠ [] := by
    simpa using hplain.nonempty
  have hnull : '\x00' ∉ o.val.content.toList := (postInit_eq_ok.mp o.property).contentNull
  constructor
  · apply zero_not_mem_bytesOf
    rw [htext]
    simp only [List.mem_append, not_or]
    exact ⟨by decide, hfenced.null, by decide, by decide, hplain.null, by decide, hnull, by decide⟩
  · have hlines : readNewlines text.toList = text.toList := by
      apply readNewlines_eq
      rw [htext]
      simp only [List.mem_append, not_or]
      exact ⟨by decide, hfenced.carriageReturn, by decide, by decide, hplain.carriageReturn, by decide,
        hcontent.carriageReturn, by decide⟩
    refine ⟨fm, loaded, "# ".toList ++ (title.toList ++ ("\n\n".toList ++ (o.val.content.toList ++ ['\n']))),
      ?_, hload, hget, ?_, ?_⟩
    · rw [hlines, htext]
      exact matchYaml_fenced hfenced rfl
    · rw [stripH1Title_heading hne hhead hplain.lineFeed]
      obtain ⟨hfirst, hend⟩ := hcontent.ends
      rw [strip_append hfirst hend (by simpa using hcontent.nonempty) (by simp; decide), String.ofList_toList]
    · rw [extractH1Title_heading hne hhead hlast hplain.lineFeed, String.ofList_toList]

end Rendered

section Imported

/-- The calls of the save function, each of which may return any id or fail. -/
def importing : Semantics importSignature Exn (List SaveArgs)
  | ⟨.save args, _⟩, s, s' => s' = s ++ [args]
  | ⟨.uuid4, r⟩, s, s' => s' = s ∧ ∃ id, r = .ok id

variable {yaml : Yaml} {o : Observation} {title text : String}

section Steps

variable {svc : ObsidianImportService} {args : ImportArgs} {file : MdFile} {fields : JsonObject} {body : String}
  {state : ImportState} {save : SaveArgs} {s s' : List SaveArgs}

theorem uuid4_runs {out : Except Exn String} (h : uuid4.Runs importing s out s') :
    s' = s ∧ ∃ id, out = .ok id := Program.runs_perform.mp h

theorem importId_runs {out : Except Exn String} (h : (svc.importId fields).Runs importing s out s') :
    s' = s ∧ ∃ id, out = .ok id := by
  unfold ObsidianImportService.importId at h
  cases hid : JsonObject.get fields "id" with
  | str id =>
    rw [hid] at h
    by_cases hvalid : id ≠ "" ∧ svc.isUuid id = true
    · simp only [if_pos hvalid] at h
      exact ⟨h.2, id, h.1⟩
    · simp only [if_neg hvalid] at h
      exact uuid4_runs h
  | _ =>
    rw [hid] at h
    exact uuid4_runs h

theorem importParsed_runs {out : Except Exn ImportState} (hskip : args.skipDuplicates = false)
    (hdry : args.dryRun = false) (hsave : saveArgs args.projectOverride file fields body = some save)
    (h : (svc.importParsed args file (some (fields, body)) state).Runs importing s out s') :
    s' = s ++ [save] ∧ ∃ after, out = .ok after := by
  simp only [ObsidianImportService.importParsed, hskip, hdry, hsave, Bool.false_eq_true, false_and, if_false] at h
  obtain ⟨e, hid, -⟩ | ⟨id, s₁, hid, hrest⟩ := Program.runs_bind.mp h
  · obtain ⟨-, id, hid⟩ := importId_runs hid
    cases hid
  · obtain ⟨rfl, -⟩ := importId_runs hid
    obtain ⟨r, s₂, hstep, hend⟩ := hrest
    have hcalls : s₂ = s₁ ++ [save] := hstep
    cases r with
    | ok newId => exact ⟨hend.2.trans hcalls, _, hend.1⟩
    | error e => exact ⟨hend.2.trans hcalls, _, hend.1⟩

theorem importFile_runs {out : Except Exn ImportState}
    (h : (svc.importFile args file state).Runs importing s out s') (hinside : file.isInside = true)
    (hfile : file.isFile = true) (hbinary : isBinary file = false)
    (hparse : parseFile svc.yaml file = .ok (some (fields, body))) (hskip : args.skipDuplicates = false)
    (hdry : args.dryRun = false) (hsave : saveArgs args.projectOverride file fields body = some save) :
    s' = s ++ [save] ∧ ∃ after, out = .ok after := by
  rw [ObsidianImportService.importFile, if_neg (not_not_intro hinside), if_neg (not_not_intro hfile), hbinary,
    if_neg Bool.false_ne_true, hparse, Program.ofExcept_ok, Program.ret_bind] at h
  exact importParsed_runs hskip hdry hsave h

end Steps

/-- What a note with content is saved with: the front matter decides where it says something. -/
theorem saveArgs_rendered (file : MdFile) {fields : JsonObject} {topicKey : String} {body : List Char}
    (hget : ∀ key, ∃ created, JsonObject.get fields key = JsonObject.get (frontmatter o created) key)
    (htopic : o.val.topicKey = some topicKey)
    (hstripped : strip (String.ofList (stripH1Title true body)) = o.val.content)
    (hextracted : extractH1Title body = some title) :
    ∃ args, saveArgs none file fields (String.ofList body) = some args ∧ args.content = o.val.content ∧
      args.title = some title ∧ args.topicKey = .str topicKey ∧ args.project = .ofText o.val.project ∧
        args.type = .ofText o.val.type := by
  have hvalid := postInit_eq_ok.mp o.property
  have htopicKey : JsonObject.get fields "topic_key" = .str topicKey := by
    obtain ⟨created, hsame⟩ := hget "topic_key"
    rw [hsame, (get_frontmatter o created).1, htopic]
    rfl
  have hproject : JsonObject.get fields "project" = .ofText o.val.project := by
    obtain ⟨created, hsame⟩ := hget "project"
    rw [hsame, (get_frontmatter o created).2.1]
  have htype : JsonObject.get fields "type" = .ofText o.val.type := by
    obtain ⟨created, hsame⟩ := hget "type"
    rw [hsame, (get_frontmatter o created).2.2]
  have hcontent : ¬ o.val.content = "" := hvalid.content
  rw [saveArgs, String.toList_ofList]
  simp only [hstripped]
  rw [if_neg hcontent]
  refine ⟨_, rfl, rfl, hextracted, ?_, hproject, ?_⟩
  · have hne : topicKey ≠ "" := hvalid.topicKey topicKey htopic
    simp only [importTopicKey, htopicKey]
    rw [if_pos (by simpa [Json.truthy] using hne)]
  · simp only [htype]
    cases hsome : o.val.type with
    | none => rfl
    | some type =>
      have hne : type ≠ "" := by
        intro hempty
        have hallowed := hvalid.type type hsome
        rw [hempty] at hallowed
        revert hallowed
        decide
      exact if_pos (by simpa [Json.truthy, Json.ofText] using hne)

theorem isBinary_eq_false {file : MdFile} {bytes : ByteArray} (hbytes : file.bytes = .ok bytes)
    (hzero : 0 ∉ bytesOf bytes) : isBinary file = false := by
  rw [isBinary, hbytes]
  apply decide_eq_false
  intro hmem
  exact hzero (List.mem_of_mem_take hmem)

theorem parseFile_eq {file : MdFile} {fm : String} {body : List Char} {loaded : JsonObject}
    (hbytes : file.bytes = .ok text.toUTF8) (hmatch : matchYaml (readNewlines text.toList) = some (fm.toList, body))
    (hload : yaml.safeLoad fm = .ok (.obj loaded)) :
    parseFile yaml file = .ok (some (loaded, String.ofList body)) := by
  rw [parseFile, hbytes]
  simp only [fromUTF8?_toUTF8, hmatch, String.ofList_toList, hload]

/-- An exported note is saved as it was: with its content, its title, its type, its project and its topic
key. -/
theorem imports_exported (isoformat : Int → Except Exn String) (isWordChar : Char → Bool) (isUuid : String → Bool)
    (inputDir : String) (existingIds : List String) {topicKey : String} {file : MdFile}
    (hyaml : ∀ created, (ObsidianExportService.mk yaml isoformat isWordChar).created o = .ok created →
      yaml.Keeps (frontmatter o created))
    (htopic : o.val.topicKey = some topicKey) (htitle : o.val.title = some title) (hplain : PlainTitle title)
    (hcontent : PlainContent o.val.content)
    (hrender : (ObsidianExportService.mk yaml isoformat isWordChar).render o = .ok text)
    (hinside : file.isInside = true) (hfile : file.isFile = true) (hbytes : file.bytes = .ok text.toUTF8)
    {out : Except Exn ImportResult} {calls : List SaveArgs}
    (hrun : ((ObsidianImportService.mk yaml isUuid).importFromDir { inputDir, existingIds } [file]).Runs
      importing [] out calls) :
    ∃ args, calls = [args] ∧ args.content = o.val.content ∧ args.title = some title ∧
      args.topicKey = .str topicKey ∧ args.project = .ofText o.val.project ∧ args.type = .ofText o.val.type := by
  obtain ⟨hzero, fm, loaded, body, hmatch, hload, hget, hstripped, hextracted⟩ :=
    parse_rendered hrender hyaml htitle hplain hcontent
  have hbinary : isBinary file = false := isBinary_eq_false hbytes hzero
  have hparse : parseFile yaml file = .ok (some (loaded, String.ofList body)) :=
    parseFile_eq hbytes hmatch hload
  obtain ⟨args, hargs, hsaved⟩ := saveArgs_rendered file hget htopic hstripped hextracted
  refine ⟨args, ?_, hsaved⟩
  have hone : ∀ {out s'}, ((ObsidianImportService.mk yaml isUuid).importFile { inputDir, existingIds } file {}).Runs
      importing [] out s' → s' = [args] ∧ ∃ after, out = .ok after := by
    intro out s' h
    exact importFile_runs h hinside hfile hbinary hparse rfl rfl hargs
  obtain ⟨e, heach, -⟩ | ⟨after, s₁, heach, hend⟩ := Program.runs_bind.mp hrun
  · obtain ⟨e', hfirst, -⟩ | ⟨state, s₂, hfirst, hret⟩ := Program.runs_bind.mp heach
    · exact (hone hfirst).1
    · exact hret.2.trans (hone hfirst).1
  · obtain ⟨e', hfirst, hcontra⟩ | ⟨state, s₂, hfirst, hret⟩ := Program.runs_bind.mp heach
    · cases hcontra
    · rw [hend.2, hret.2]
      exact (hone hfirst).1

theorem importing_total {α : Type} (p : ImportProgram α) (s : List SaveArgs) :
    ∃ out s', p.Runs importing s out s' := by
  induction p generalizing s with
  | ret a => exact ⟨_, _, rfl, rfl⟩
  | fail e => exact ⟨_, _, rfl, rfl⟩
  | call c next ih =>
    cases c with
    | save args =>
      obtain ⟨out, s', hrest⟩ := ih (.ok "id") (s ++ [args])
      exact ⟨out, s', .ok "id", s ++ [args], rfl, hrest⟩
    | uuid4 =>
      obtain ⟨out, s', hrest⟩ := ih (.ok "id") s
      exact ⟨out, s', .ok "id", s, ⟨rfl, "id", rfl⟩, hrest⟩

section Example

/-- A note whose content looks like a heading with front matter. -/
def fencedNote : Observation :=
  ⟨{ id := "note-1", timestamp := 0, content := "# Steps\n\n---\n# Plan\n---", title := some "Plan",
     topicKey := some "plans" }, rfl⟩

/-- What YAML makes of its front matter. -/
def fencedYaml : Yaml where
  dump _ := "id: note-1\nrevision_count: 1\ntags:\n- plans\ntopic_key: plans\n"
  safeLoad _ := .ok (.obj [("id", .str "note-1"), ("revision_count", .int 1), ("tags", .arr [.str "plans"]),
    ("topic_key", .str "plans")])
  isYamlError _ := false

theorem fencedYaml_keeps : fencedYaml.Keeps (frontmatter fencedNote none) := by
  refine ⟨"id: note-1\nrevision_count: 1\ntags:\n- plans\ntopic_key: plans", rfl, ?_, _, rfl, ?_⟩
  · exact ⟨⟨'i', by decide, by decide⟩, by decide, by decide, by decide⟩
  · intro key
    have hfields : frontmatter fencedNote none = [("id", .str "note-1"), ("topic_key", .str "plans"),
        ("revision_count", .int 1), ("tags", .arr [.str "plans"])] := by
      decide
    rw [hfields]
    simp only [JsonObject.get, List.lookup_cons, List.lookup_nil]
    by_cases htopic : key = "topic_key"
    · rw [htopic]
      rfl
    · have hkey : (key == "topic_key") = false := beq_false_of_ne htopic
      rw [hkey]

/-- The note with its front matter, as it is written to the disk. -/
def fencedText : String :=
  "---\n" ++ fencedYaml.dump (frontmatter fencedNote none) ++ "---\n# " ++ heading fencedNote ++ "\n\n" ++
    fencedNote.val.content ++ "\n"

def fencedFile : MdFile where
  name := "plans.md"
  bytes := .ok fencedText.toUTF8

theorem imports_exported_fencedNote : ∃ out calls,
    ((ObsidianImportService.mk fencedYaml fun _ => false).importFromDir ⟨"vault", [], false, none, false⟩
      [fencedFile]).Runs importing [] out calls ∧
    ∃ args : SaveArgs, calls = [args] ∧ args.content = fencedNote.val.content ∧ args.title = some "Plan" ∧
      args.topicKey = .str "plans" := by
  obtain ⟨out, calls, hrun⟩ := importing_total ((ObsidianImportService.mk fencedYaml fun _ => false).importFromDir
    ⟨"vault", [], false, none, false⟩ [fencedFile]) []
  have hkeeps : ∀ created, (ObsidianExportService.mk fencedYaml (fun _ => .ok "") Char.isAlphanum).created
      fencedNote = .ok created → fencedYaml.Keeps (frontmatter fencedNote created) := by
    intro created hcreated
    cases hcreated
    exact fencedYaml_keeps
  have hplain : PlainTitle "Plan" := ⟨⟨by decide, by decide⟩, by decide, by decide, by decide⟩
  have hcontent : PlainContent fencedNote.val.content := ⟨⟨by decide, by decide⟩, by decide⟩
  have hrender : (ObsidianExportService.mk fencedYaml (fun _ => .ok "") Char.isAlphanum).render fencedNote =
      .ok fencedText := rfl
  obtain ⟨args, hcalls, hsaved, htitle, htopic, -⟩ := imports_exported (fun _ => .ok "") Char.isAlphanum
    (fun _ => false) "vault" [] hkeeps rfl rfl hplain hcontent hrender rfl rfl rfl hrun
  exact ⟨out, calls, hrun, args, hcalls, hsaved, htitle, htopic⟩

end Example

end Imported

end ForkAgent.Obsidian
