import AgentCentric.N8n.Adapter
import AgentCentric.Network.Malformed

namespace AgentCentric.N8n
open Network ComponentNetwork

def Design.declared (design : Design) : Boot.Design :=
  ⟨Value.ofJsonItems design.network.entries.entries,design.components,design.envelopes,
    design.requestedOnce,design.grantedOnce⟩

/-- What `compile_design` raises. -/
inductive CompileError where
  | design (message : String)
  | parse (e : ParseError)

structure CompiledDesign where
  designHash : String
  network : ComponentNetwork
  plan : List PlanStep
  componentIds : List String

def parsed {α : Type} (x : Except ParseError α) : Except CompileError α := x.mapError .parse

def compileDesign (sha256 : List Char → HexDigest) (design : Design) :
    Except CompileError CompiledDesign := do
  let report ← parsed (Boot.validateDesign design.declared)
  require report.ok (.design (String.intercalate "; " report.errors))
  let network ← parsed (fromDict design.declared.network)
  let plan ← parsed (networkError network.compile)
  pure ⟨design.designHash sha256,network,plan,report.componentIds⟩

theorem validateDesign_returns (design : Design) :
    (∃ report, Boot.validateDesign design.declared = .ok report) ↔
      ¬Escapes (fromDict design.declared.network) := by
  unfold Boot.validateDesign
  cases h : fromDict design.declared.network with
  | ok net => exact ⟨fun _ => escapes_ok net,fun _ => ⟨_,rfl⟩⟩
  | error e =>
    cases e with
    | network m => exact ⟨fun _ => escapes_network m,fun _ => ⟨_,rfl⟩⟩
    | _ => exact ⟨nofun,fun hnot => absurd (escapes_error (by nofun)) hnot⟩

theorem compileDesign_returns (sha256 : List Char → HexDigest) {design : Design}
    {report : Boot.DesignReport} (h : Boot.validateDesign design.declared = .ok report) :
    report.ok = true ↔ ∃ compiled, compileDesign sha256 design = .ok compiled := by
  constructor
  · intro hok
    obtain ⟨net,hnet,herrors⟩ := Boot.validateDesign_ok h hok
    have hcompiles : Boot.networkErrors net = [] := by
      simp only [Boot.designErrors,List.append_eq_nil_iff] at herrors
      exact herrors.2
    unfold Boot.networkErrors at hcompiles
    split at hcompiles
    · rename_i hplan
      obtain ⟨-,-,hplan⟩ := bind_ok.1 hplan
      obtain ⟨plan,hplan,-⟩ := bind_ok.1 hplan
      exact ⟨_,bind_ok.2 ⟨report,mapError_ok.2 h,bind_ok.2 ⟨(),require_ok.2 hok,
        bind_ok.2 ⟨net,mapError_ok.2 hnet,bind_ok.2 ⟨plan,mapError_ok.2 (mapError_ok.2 hplan),rfl⟩⟩⟩⟩⟩
    · cases hcompiles
  · rintro ⟨compiled,hcompiled⟩
    obtain ⟨report',hreport',hcompiled⟩ := bind_ok.1 hcompiled
    obtain rfl := Except.ok.inj (h.symm.trans (mapError_ok.1 hreport'))
    obtain ⟨_,hok,_⟩ := bind_ok.1 hcompiled
    exact require_ok.1 hok

/-- A document is read or refused with a `NetworkError`, and a design is reported on, with the
report of what compiles, exactly where the document does not escape. -/
theorem designs_closed_iff (sha256 : List Char → HexDigest) :
    (∀ data : Dict String Json,
      ((∃ net, fromDict (Value.ofJsonItems data.entries) = .ok net) ∨
        ∃ m, fromDict (Value.ofJsonItems data.entries) = .error (.network m)) ↔
      ¬DocumentEscapes (maxSubnetDepth + 1) data.entries) ∧
    ∀ design : Design,
      (∃ report, Boot.validateDesign design.declared = .ok report ∧
        (report.ok = true ↔ ∃ compiled, compileDesign sha256 design = .ok compiled)) ↔
      ¬DocumentEscapes (maxSubnetDepth + 1) design.network.entries.entries := by
  constructor
  · intro data
    rw [← (fromDictDepth_settles _ _).escapes]
    show _ ↔ ¬Escapes (fromDict _)
    cases fromDict (Value.ofJsonItems data.entries) with
    | ok net => exact ⟨fun _ => escapes_ok net,fun _ => .inl ⟨net,rfl⟩⟩
    | error e =>
      cases e with
      | network m => exact ⟨fun _ => escapes_network m,fun _ => .inr ⟨m,rfl⟩⟩
      | _ => exact ⟨by simp,fun hnot => absurd (escapes_error (by nofun)) hnot⟩
  · intro design
    rw [← (fromDictDepth_settles _ _).escapes]
    refine Iff.trans ⟨?_,?_⟩ (validateDesign_returns design)
    · rintro ⟨report,hreport,-⟩
      exact ⟨report,hreport⟩
    · rintro ⟨report,hreport⟩
      exact ⟨report,hreport,compileDesign_returns sha256 hreport⟩

def numbered : Graph where
  entries := Dict.empty.set "components" (.list [.dict [("id",.str "a"),("args",.int 5)]])
  keyed := by
    intro key rows h items hitems
    by_cases hkey : key = "components"
    · subst hkey
      rw [Dict.get_set_self] at h
      obtain rfl := Json.list.inj (Option.some.inj h)
      obtain rfl := Json.dict.inj (List.mem_singleton.1 hitems)
      decide
    · rw [Dict.get_set_ne _ _ (Ne.symm hkey)] at h
      cases h

/-- A number for arguments raises a `TypeError`, in the parser and in the validator. -/
theorem designs_raise : ¬ ∀ sha256 : List Char → HexDigest,
    (∀ data : Dict String Json, (∃ net, fromDict (Value.ofJsonItems data.entries) = .ok net) ∨
      ∃ m, fromDict (Value.ofJsonItems data.entries) = .error (.network m)) ∧
    ∀ design : Design, ∃ report, Boot.validateDesign design.declared = .ok report ∧
      (report.ok = true ↔ ∃ compiled, compileDesign sha256 design = .ok compiled) := by
  intro h
  have htype : fromDict (Value.ofJsonItems numbered.entries.entries) = .error .type := by rfl
  rcases (h fun _ => ⟨String.ofList (List.replicate 64 '0'),by decide⟩).1 numbered.entries with
    ⟨net,hnet⟩ | ⟨m,hm⟩
  · cases htype.symm.trans hnet
  · cases htype.symm.trans hm

end AgentCentric.N8n
