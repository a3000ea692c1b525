import JobQueue.Proofs.Request.Rules
import JobQueue.Proofs.Settings.Accepted
import JobQueue.Proofs.Settings.Kinds

/-! # Settings that are texts

The queues, the path of the database and the directory of the logs are texts. The names of queues
stand in one variable, with commas between them.

* `Settings.lastFor?`: the variable that counts for a setting. `Settings.gather_plain`: the settings
  that are put together.
* `SettingValue.parts_intercalate`: names without commas are the parts of the joined names.
* `text_settings_arrive`: **the names arrive unless there is one that looks like another value; the
  other texts arrive as they are just if they are spelled as they are written.** -/

namespace JobQueue

namespace SettingValue

/-! ### Names between commas -/

theorem splitCommas_of_not_mem {cs : List Char} (h : ',' ∉ cs) : splitCommas cs = [cs] := by
  induction cs with
  | nil => rfl
  | cons c cs ih =>
    rw [List.mem_cons, not_or] at h
    rw [splitCommas, if_neg (Ne.symm h.1), ih h.2]

theorem splitCommas_append {cs : List Char} (rest : List Char) (h : ',' ∉ cs) :
    splitCommas (cs ++ ',' :: rest) = cs :: splitCommas rest := by
  induction cs with
  | nil => rw [List.nil_append, splitCommas, if_pos rfl]
  | cons c cs ih =>
    rw [List.mem_cons, not_or] at h
    rw [List.cons_append, splitCommas, if_neg (Ne.symm h.1), ih h.2]

/-- **Names without commas are what stands between the commas.** -/
theorem parts_intercalate {names : List String} (hnonempty : names ≠ [])
    (hcomma : ∀ name ∈ names, ',' ∉ name.toList) : parts (",".intercalate names) = names := by
  unfold parts
  induction names with
  | nil => exact absurd rfl hnonempty
  | cons name names ih =>
    rw [List.forall_mem_cons] at hcomma
    cases names with
    | nil =>
      rw [String.intercalate_singleton, splitCommas_of_not_mem hcomma.1]
      simp
    | cons next names =>
      have hjoined : (",".intercalate (name :: next :: names)).toList =
          name.toList ++ ',' :: (",".intercalate (next :: names)).toList := by
        rw [String.intercalate_cons_cons]
        simp
      rw [hjoined, splitCommas_append _ hcomma.1, List.map_cons, ih (List.cons_ne_nil _ _) hcomma.2,
        String.ofList_toList]

theorem isLookalike_intercalate_iff {names : List String} (hnonempty : names ≠ []) :
    IsLookalike (",".intercalate names) ↔ ∃ name, names = [name] ∧ IsLookalike name := by
  cases names with
  | nil => exact absurd rfl hnonempty
  | cons name names =>
    cases names with
    | nil =>
      rw [String.intercalate_singleton]
      simp
    | cons next names =>
      refine iff_of_false (fun h => h.comma_not_mem ?_) (by simp)
      rw [String.intercalate_cons_cons]
      simp

end SettingValue

namespace Settings

/-! ### Settings by their variables -/

/-- The variable that counts for a setting: the last one that is for it. -/
def lastFor? (vars : Environment) (setting : String) : Option (String × String) :=
  vars.reverse.find? fun v => settingName? v.1 == some setting

theorem lastFor?_concat (vars : Environment) (v : String × String) (setting : String) :
    lastFor? (vars ++ [v]) setting =
      if settingName? v.1 = some setting then some v else lastFor? vars setting := by
  unfold lastFor?
  rw [List.reverse_concat, List.find?_cons]
  split
  · next h => rw [if_pos (beq_iff_eq.1 h)]
  · next h => rw [if_neg (beq_eq_false_iff_ne.1 h)]

theorem lastFor?_eq_none {vars : Environment} {setting : String}
    (h : ∀ v ∈ vars, settingName? v.1 ≠ some setting) : lastFor? vars setting = none := by
  refine List.find?_eq_none.2 fun v hv => ?_
  rw [beq_iff_eq]
  exact h v (List.mem_reverse.1 hv)

theorem lastFor?_eq_some {vars : Environment} {setting : String} {v : String × String}
    (hmem : v ∈ vars) (hv : settingName? v.1 = some setting)
    (honly : ∀ w ∈ vars, settingName? w.1 = some setting → w = v) :
    lastFor? vars setting = some v := by
  unfold lastFor?
  cases hfound : vars.reverse.find? fun v => settingName? v.1 == some setting with
  | none =>
    have hnot := List.find?_eq_none.1 hfound v (List.mem_reverse.2 hmem)
    exact absurd (beq_iff_eq.2 hv) hnot
  | some w =>
    have hw := List.find?_some hfound
    have hwmem := List.mem_reverse.1 (List.mem_of_find?_eq_some hfound)
    rw [honly w hwmem (beq_iff_eq.1 hw)]

/-- The variables are for settings that lie in no other ones. -/
def Plain (vars : Environment) : Prop :=
  ∀ v ∈ vars, ∀ setting, settingName? v.1 = some setting →
    SettingName.ofText setting = ⟨setting, []⟩

theorem member?_put (new tree : SettingTree) (setting : String) :
    ∃ tree', SettingTree.put new [.member setting] tree = .ok tree' ∧
      ∀ other, tree'.member? other = if setting = other then some new else tree.member? other := by
  refine ⟨.table (SettingTree.replace setting new tree.members), rfl, fun other => ?_⟩
  show SettingTree.lookup other (SettingTree.replace setting new tree.members) = _
  split
  · next h => rw [← h, SettingTree.lookup_replace_self]
  · next h =>
    rw [SettingTree.lookup_replace_of_ne _ _ (Ne.symm h)]
    rfl

theorem gather_concat_of_none {vars : Environment} {tree : SettingTree} {v : String × String}
    (htree : gather vars = .ok tree) (hsetting : settingName? v.1 = none) :
    gather (vars ++ [v]) = .ok tree := by
  unfold gather at htree ⊢
  rw [List.foldlM_append, htree]
  refine (bind_pure (m := Except Breakdown) _).trans ?_
  simp only [hsetting]

theorem gather_concat_of_some {vars : Environment} {tree : SettingTree} {v : String × String}
    {name : String} (htree : gather vars = .ok tree) (hsetting : settingName? v.1 = some name) :
    gather (vars ++ [v]) = SettingTree.put (.ofText (name == "queues") v.2)
      (.member (SettingName.ofText name).outer :: (SettingName.ofText name).steps) tree := by
  unfold gather at htree ⊢
  rw [List.foldlM_append, htree]
  refine (bind_pure (m := Except Breakdown) _).trans ?_
  simp only [hsetting]

/-- **Plain variables can be put together**, and the last one for a setting counts. -/
theorem gather_plain {vars : Environment} (hplain : Plain vars) :
    ∃ tree, gather vars = .ok tree ∧ ∀ setting, tree.member? setting =
      (lastFor? vars setting).map fun v => .ofText (setting == "queues") v.2 := by
  induction vars using List.reverseRecOn with
  | nil => exact ⟨.table [], rfl, fun _ => rfl⟩
  | append_singleton vars v ih =>
    obtain ⟨tree, htree, hmembers⟩ := ih fun w hw => hplain w (List.mem_append_left _ hw)
    cases hsetting : settingName? v.1 with
    | none =>
      refine ⟨tree, gather_concat_of_none htree hsetting, fun setting => ?_⟩
      rw [hmembers, lastFor?_concat, hsetting]
      rfl
    | some name =>
      have hname := hplain v (List.mem_append_right _ (List.mem_singleton_self v)) name hsetting
      obtain ⟨tree', hput, hmember⟩ := member?_put (.ofText (name == "queues") v.2) tree name
      refine ⟨tree', ?_, fun setting => ?_⟩
      · rw [gather_concat_of_some htree hsetting, hname, hput]
      · rw [hmember, lastFor?_concat, hsetting, hmembers]
        by_cases heq : name = setting
        · subst heq
          simp
        · simp [heq]

/-! ### The three texts -/

/-- The variables of the settings that are texts. -/
def textVars (names : List String) (path directory : String) : Environment :=
  [("TASKLANE_QUEUES", ",".intercalate names), ("TASKLANE_DB_PATH", path),
    ("TASKLANE_LOG_DIR", directory)]

/-- **The tree has the three texts** and nothing else. -/
structure HasTexts (tree : SettingTree) (names : List String) (path directory : String) :
    Prop where
  queues : tree.member? "queues" = some (.ofText true (",".intercalate names))
  path : tree.member? "db_path" = some (.ofText false path)
  directory : tree.member? "log_dir" = some (.ofText false directory)
  other : ∀ setting ∉ ["queues", "db_path", "log_dir"], tree.member? setting = none

theorem settingName?_texts : settingName? "TASKLANE_QUEUES" = some "queues" ∧
    settingName? "TASKLANE_DB_PATH" = some "db_path" ∧
    settingName? "TASKLANE_LOG_DIR" = some "log_dir" := by
  decide

theorem settingName?_of_mem {names : List String} {path directory : String} {v : String × String}
    {setting : String} (hv : v ∈ textVars names path directory)
    (hsetting : settingName? v.1 = some setting) :
    (setting = "queues" ∧ v = ("TASKLANE_QUEUES", ",".intercalate names)) ∨
      (setting = "db_path" ∧ v = ("TASKLANE_DB_PATH", path)) ∨
      (setting = "log_dir" ∧ v = ("TASKLANE_LOG_DIR", directory)) := by
  obtain ⟨hqueues, hpath, hdirectory⟩ := settingName?_texts
  simp only [textVars, List.mem_cons, List.not_mem_nil, or_false] at hv
  rcases hv with rfl | rfl | rfl
  · exact .inl ⟨Option.some.inj (hsetting.symm.trans hqueues), rfl⟩
  · exact .inr (.inl ⟨Option.some.inj (hsetting.symm.trans hpath), rfl⟩)
  · exact .inr (.inr ⟨Option.some.inj (hsetting.symm.trans hdirectory), rfl⟩)

/-- **The three variables give the tree of the texts**, in whatever order they are found and
whatever other variables there are. -/
theorem gather_texts {names : List String} {path directory : String} {vars others : Environment}
    (hvars : vars.Perm (textVars names path directory ++ others))
    (hothers : ∀ v ∈ others, settingName? v.1 = none) :
    ∃ tree, gather vars = .ok tree ∧ HasTexts tree names path directory := by
  have hmem : ∀ v ∈ vars, ∀ setting, settingName? v.1 = some setting →
      v ∈ textVars names path directory := by
    intro v hv setting hsetting
    rcases List.mem_append.1 (hvars.mem_iff.1 hv) with hv | hv
    · exact hv
    · rw [hothers v hv] at hsetting
      cases hsetting
  have hplain : Plain vars := by
    intro v hv setting hsetting
    rcases settingName?_of_mem (hmem v hv setting hsetting) hsetting with h | h | h
    all_goals
      obtain ⟨rfl, -⟩ := h
      decide +kernel
  have hlast : ∀ v ∈ textVars names path directory, ∀ setting, settingName? v.1 = some setting →
      lastFor? vars setting = some v := by
    intro v hv setting hsetting
    refine lastFor?_eq_some (hvars.mem_iff.2 (List.mem_append_left _ hv)) hsetting
      fun w hw hwsetting => ?_
    have hfirst := settingName?_of_mem hv hsetting
    have hsecond := settingName?_of_mem (hmem w hw setting hwsetting) hwsetting
    rcases hfirst with ⟨rfl, rfl⟩ | ⟨rfl, rfl⟩ | ⟨rfl, rfl⟩
    · simpa using hsecond
    · simpa using hsecond
    · simpa using hsecond
  obtain ⟨tree, hgather, hmembers⟩ := gather_plain hplain
  obtain ⟨hqueues, hpath, hdirectory⟩ := settingName?_texts
  refine ⟨tree, hgather, ?_, ?_, ?_, fun setting hsetting => ?_⟩
  · rw [hmembers, hlast ("TASKLANE_QUEUES", ",".intercalate names) (by simp [textVars]) _ hqueues]
    rfl
  · rw [hmembers, hlast ("TASKLANE_DB_PATH", path) (by simp [textVars]) _ hpath]
    rfl
  · rw [hmembers, hlast ("TASKLANE_LOG_DIR", directory) (by simp [textVars]) _ hdirectory]
    rfl
  · rw [hmembers, lastFor?_eq_none]
    · rfl
    · intro v hv hfor
      rcases settingName?_of_mem (hmem v hv setting hfor) hfor with h | h | h
      all_goals
        obtain ⟨rfl, -⟩ := h
        exact hsetting (by decide)

/-! ### What the texts are -/

theorem field_of_none {α : Type} {tree : SettingTree} {setting : String} (d : α)
    (reader : SettingTree → Option α) (h : tree.member? setting = none) :
    field tree setting d reader = .ok d := by
  unfold field
  rw [h]

theorem field_of_some {α : Type} {tree part : SettingTree} {setting : String} (d : α)
    (reader : SettingTree → Option α) (h : tree.member? setting = some part) :
    field tree setting d reader = match reader part with
      | some a => .ok a
      | none => .error .invalid := by
  cases hread : reader part <;> simp [field, h, hread]

theorem textOf?_ofText (s : String) :
    textOf? (.ofText false s) = some (SettingValue.classify s).asText := by
  unfold SettingTree.ofText
  split
  · next t h =>
    rw [h]
    rfl
  · rfl

theorem texts?_of_isLookalike {s : String} (h : SettingValue.IsLookalike s) :
    (SettingTree.ofText true s).texts? = none := by
  unfold SettingTree.ofText
  split
  · next t ht => exact absurd h (SettingValue.classify_eq_text_iff.1 ht).1
  · rfl

theorem texts?_list (parts : List String) :
    (SettingTree.list (parts.map fun part => .value (.text part))).texts? = some parts := by
  show (parts.map fun part => .value (.text part)).mapM
    (fun entry : SettingTree => entry.value?.map SettingValue.asText) = some parts
  rw [List.mapM_map]
  exact List.mapM_pure.trans (congrArg some (List.map_id parts))

theorem texts?_of_not_isLookalike {s : String} (h : ¬ SettingValue.IsLookalike s) :
    (SettingTree.ofText true s).texts? = some (SettingValue.parts s) := by
  unfold SettingTree.ofText
  rw [SettingValue.classify_eq_text_iff.2 ⟨h, rfl⟩]
  exact texts?_list _

theorem HasTexts.ofTree {tree : SettingTree} {names : List String} {path directory : String}
    (h : HasTexts tree names path directory) : Settings.ofTree tree =
      match (SettingTree.ofText true (",".intercalate names)).texts? with
      | some queues => .ok { standard with
          queues := queues
          databasePath := (SettingValue.classify path).asText
          logDirectory := some (SettingValue.classify directory).asText }
      | none => .error .invalid := by
  have hother : ∀ {α : Type} (setting : String) (d : α) (reader : SettingTree → Option α),
      setting ∉ ["queues", "db_path", "log_dir"] → field tree setting d reader = .ok d :=
    fun setting d reader hnot => field_of_none d reader (h.other setting hnot)
  unfold Settings.ofTree natField
  dsimp only
  rw [field_of_some _ _ h.queues, field_of_some _ _ h.path, field_of_some _ _ h.directory]
  simp (disch := decide) only [textOf?_ofText, hother]
  cases (SettingTree.ofText true (",".intercalate names)).texts? with
  | some queues => rfl
  | none => rfl

theorem check_standard : standard.runnerConfig.check = .ok () := by decide +kernel

end Settings

theorem comma_not_mem_of_checkName {field : NameField} {name : String}
    (h : Request.checkName field name = .ok ()) : ',' ∉ name.toList := by
  unfold Request.checkName at h
  intro hmem
  split at h
  · cases h
  · split at h
    · cases h
    · split at h
      · next hall => exact absurd (List.all_eq_true.1 hall ',' hmem) (by decide)
      · cases h

/-- **Text settings.** Names that pass as names of queues are given in one variable, with commas
between them, a path and a directory in two other ones, in any order and beside variables that are
none of the program's. A single name that looks like a truth value or a number is refused. In all
other cases there are settings, with just these names in their order as queues, with what the two
texts are taken for, and otherwise those without any variable. The path arrives as it is just if it
is spelled as its value is written, and so does the directory. -/
theorem text_settings_arrive {names : List String} {path directory : String}
    {vars others : Environment} (hnonempty : names ≠ [])
    (hnames : ∀ name ∈ names, Request.checkName .queue name = .ok ())
    (hvars : vars.Perm (Settings.textVars names path directory ++ others))
    (hothers : ∀ v ∈ others, Settings.settingName? v.1 = none) :
    (∀ name, names = [name] → SettingValue.IsLookalike name →
      Settings.read vars = .error .invalid) ∧
    ((∀ name, names = [name] → ¬ SettingValue.IsLookalike name) →
      ∃ s, Settings.read vars = .ok s ∧
        s = { Settings.standard with
          queues := names
          databasePath := (SettingValue.classify path).asText
          logDirectory := some (SettingValue.classify directory).asText } ∧
        (s.databasePath = path ↔ SettingValue.Verbatim path) ∧
        (s.logDirectory = some directory ↔ SettingValue.Verbatim directory)) := by
  obtain ⟨tree, hgather, htexts⟩ := Settings.gather_texts hvars hothers
  have hjoined := SettingValue.isLookalike_intercalate_iff hnonempty
  refine ⟨fun name hname hlookalike => ?_, fun hplain => ?_⟩
  · have hrefused := Settings.texts?_of_isLookalike (hjoined.2 ⟨name, hname, hlookalike⟩)
    rw [Settings.read_of_gather hgather, htexts.ofTree, hrefused]
    rfl
  · have hlist := Settings.texts?_of_not_isLookalike
      (mt hjoined.1 fun ⟨name, hname, hlookalike⟩ => hplain name hname hlookalike)
    rw [SettingValue.parts_intercalate hnonempty
      fun name hname => comma_not_mem_of_checkName (hnames name hname)] at hlist
    have htree := htexts.ofTree
    rw [hlist] at htree
    refine ⟨_, Settings.read_eq_ok_iff.2 ⟨tree, hgather, htree, fun hunusable => ?_⟩, rfl,
      SettingValue.asText_classify_iff, ?_⟩
    · exact (Settings.describes_of_ofTree htree).unusable_iff.1 hunusable Settings.check_standard
    · rw [Option.some.injEq]
      exact SettingValue.asText_classify_iff

/-- Numbers are names of queues when there are two of them; a path that looks like a number arrives
as it is when it is the number's own text. A single queue whose name is a number is refused. -/
theorem text_settings_arrive_of_two :
    let vars : Environment := [("TASKLANE_LOG_DIR", "TRUE"), ("HOME", "/root"),
      ("TASKLANE_QUEUES", "2024,1e3"), ("TASKLANE_DB_PATH", "17")]
    let single : Environment := [("TASKLANE_QUEUES", "2024"), ("TASKLANE_DB_PATH", "17"),
      ("TASKLANE_LOG_DIR", "logs")]
    (∃ s, Settings.read vars = .ok s ∧ s.queues = ["2024", "1e3"] ∧ s.databasePath = "17" ∧
      s.logDirectory = some "true") ∧
    Settings.read single = .error .invalid := by
  intro vars single
  have hnames : ∀ name ∈ ["2024", "1e3"], Request.checkName .queue name = .ok () := by
    decide +kernel
  constructor
  · have hvars : vars.Perm
        (Settings.textVars ["2024", "1e3"] "17" "TRUE" ++ [("HOME", "/root")]) := by
      decide +kernel
    obtain ⟨s, hread, rfl, hpath, -⟩ :=
      (text_settings_arrive (List.cons_ne_nil _ _) hnames hvars (by decide)).2 (by simp)
    have hdirectory : (SettingValue.classify "TRUE").asText = "true" := by decide
    exact ⟨_, hread, rfl, hpath.2 (SettingValue.asText_classify_iff.1 (by decide +kernel)),
      congrArg some hdirectory⟩
  · have hlookalike : SettingValue.IsLookalike "2024" :=
      .inr (SettingValue.parse?_isSome_iff.1 (by decide +kernel))
    have hsingle : ∀ name ∈ ["2024"], Request.checkName .queue name = .ok () := by decide +kernel
    have hvars : single.Perm (Settings.textVars ["2024"] "17" "logs" ++ []) := .refl single
    exact (text_settings_arrive (List.cons_ne_nil _ _) hsingle hvars
      fun _ hv => absurd hv List.not_mem_nil).1 "2024" rfl hlookalike

/-- **A queue whose name is a number is refused**, though the name passes, and a path and a
directory that begin or end in a zero arrive without it. -/
theorem single_number_refused :
    Request.checkName .queue "2024" = .ok () ∧
    Settings.read [("TASKLANE_QUEUES", "2024"), ("TASKLANE_DB_PATH", "/tmp/jobs.db"),
      ("TASKLANE_LOG_DIR", "/var/log/tasklane")] = .error .invalid ∧
    Request.checkName .queue "default" = .ok () ∧
    Settings.read [("TASKLANE_QUEUES", "default"), ("TASKLANE_DB_PATH", "0755"),
      ("TASKLANE_LOG_DIR", "1.50")] =
      .ok { Settings.standard with databasePath := "755", logDirectory := some "1.5" } := by
  decide +kernel

end JobQueue
