import AgentCentric.Network.Serial

namespace AgentCentric.Network

theorem byName_iff {α : Type} {name : α → String} {a b : α} :
    byName name a b = true ↔ name a ≤ name b := by simp [byName]

instance byName_total {α : Type} (name : α → String) :
    Std.Total fun a b : α => byName name a b = true where
  total a b := by simpa only [byName_iff] using le_total (name a) (name b)

instance byName_trans {α : Type} (name : α → String) :
    IsTrans α fun a b => byName name a b = true where
  trans a b c hab hbc := by
    rw [byName_iff] at *
    exact le_trans hab hbc

theorem byInport_iff {a b : IIP} :
    byInport a b = true ↔ toLex (a.component,a.port) ≤ toLex (b.component,b.port) := by
  simp [byInport]

instance byInport_total : Std.Total fun a b : IIP => byInport a b = true where
  total a b := by simpa only [byInport_iff] using le_total _ _

instance byInport_trans : IsTrans IIP fun a b => byInport a b = true where
  trans a b c hab hbc := by
    rw [byInport_iff] at *
    exact le_trans hab hbc

def arrangedDict {κ α : Type} (name : κ → String) (d : Dict κ α) : Dict κ α :=
  ⟨d.entries.insertionSort (byName (fun e => name e.1) · ·),
    ((List.perm_insertionSort _ _).map Prod.fst).nodup_iff.mpr d.nodup⟩

theorem mem_arrangedDict {κ α : Type} {name : κ → String} {d : Dict κ α} {e : κ × α} :
    e ∈ (arrangedDict name d).entries ↔ e ∈ d.entries := List.mem_insertionSort _

theorem get_arrangedDict {κ α : Type} [DecidableEq κ] (name : κ → String) (d : Dict κ α) (k : κ) :
    (arrangedDict name d).get k = d.get k :=
  Dict.lookup_perm (List.perm_insertionSort _ _) (arrangedDict name d).nodup k

theorem arrangedDict_arrangedDict {κ α : Type} (name : κ → String) (d : Dict κ α) :
    arrangedDict name (arrangedDict name d) = arrangedDict name d := by
  apply Dict.ext
  exact (List.pairwise_insertionSort (fun a b => byName (fun e : κ × α => name e.1) a b = true)
    d.entries).insertionSort_eq

def arrangedFields {Net Net' : Type} (c : ComponentOf Net) (body : Option Net') :
    ComponentOf Net' where
  id := c.id
  task := c.task
  args := c.args
  verifier := c.verifier
  child := c.child
  ports := arrangedDict Direction.name c.ports
  portTypes := (arrangedDict Direction.name c.portTypes).mapValues (arrangedDict id)
  stream := c.stream
  external := arrangedDict id c.external
  subnet := body

@[simp] theorem arrangedFields_portNames {Net Net' : Type} (c : ComponentOf Net)
    (body : Option Net') (d : Direction) : (arrangedFields c body).portNames d = c.portNames d := by
  simp [ComponentOf.portNames,arrangedFields,get_arrangedDict]

@[simp] theorem arrangedFields_portType {Net Net' : Type} (c : ComponentOf Net)
    (body : Option Net') (d : Direction) (name : String) :
    (arrangedFields c body).portType d name = c.portType d name := by
  simp only [ComponentOf.portType,arrangedFields,Dict.get_mapValues,get_arrangedDict]
  cases c.portTypes.get d with
  | none => rfl
  | some typed => simp [get_arrangedDict]

namespace ComponentNetwork

mutual

def arranged : ComponentNetwork → ComponentNetwork
  | .mk components edges iips =>
    .mk ((arrangedAll components).insertionSort (byName (·.id) · ·)) edges
      (iips.insertionSort (byInport · ·))

def arrangedAll : List Component → List Component
  | [] => []
  | c :: cs => arrangedComponent c :: arrangedAll cs

def arrangedComponent : Component → Component
  | ⟨id,task,args,verifier,child,ports,portTypes,stream,external,subnet⟩ =>
    arrangedFields
      (⟨id,task,args,verifier,child,ports,portTypes,stream,external,none⟩ : ComponentOf Unit)
      (arrangedBody subnet)

def arrangedBody : Option ComponentNetwork → Option ComponentNetwork
  | none => none
  | some net => some (arranged net)

end

theorem arrangedAll_eq (cs : List Component) : arrangedAll cs = cs.map arrangedComponent := by
  induction cs with
  | nil => rfl
  | cons c cs ih => rw [arrangedAll,ih,List.map_cons]

theorem arrangedComponent_eq (c : Component) :
    arrangedComponent c = arrangedFields c (c.subnet.map arranged) := by
  obtain ⟨id,task,args,verifier,child,ports,portTypes,stream,external,subnet⟩ := c
  cases subnet <;> rfl

@[simp] theorem arrangedComponent_id (c : Component) : (arrangedComponent c).id = c.id := by
  rw [arrangedComponent_eq]
  rfl

@[simp] theorem arrangedComponent_subnet (c : Component) :
    (arrangedComponent c).subnet = c.subnet.map arranged := by
  rw [arrangedComponent_eq]
  rfl

@[simp] theorem arrangedComponent_portNames (c : Component) (d : Direction) :
    (arrangedComponent c).portNames d = c.portNames d := by
  rw [arrangedComponent_eq,arrangedFields_portNames]

@[simp] theorem arrangedComponent_portType (c : Component) (d : Direction) (name : String) :
    (arrangedComponent c).portType d name = c.portType d name := by
  rw [arrangedComponent_eq,arrangedFields_portType]

theorem map_sortedComponents (net : ComponentNetwork) :
    (net.components.map arrangedComponent).insertionSort (byName (·.id) · ·) =
      net.sortedComponents.map arrangedComponent :=
  (List.map_insertionSort (fun a b => byName (·.id) a b = true)
    (fun a b => byName (·.id) a b = true) arrangedComponent net.components
    fun a _ b _ => by simp only [byName_iff,arrangedComponent_id]).symm

theorem arranged_components (net : ComponentNetwork) :
    net.arranged.components = net.sortedComponents.map arrangedComponent := by
  rw [← map_sortedComponents,← arrangedAll_eq]
  cases net
  rfl

@[simp] theorem arranged_edges (net : ComponentNetwork) : net.arranged.edges = net.edges := by
  cases net
  rfl

theorem arranged_iips (net : ComponentNetwork) : net.arranged.iips = net.sortedIIPs := by
  cases net
  rfl

theorem mem_sortedComponents {net : ComponentNetwork} {c : Component} :
    c ∈ net.sortedComponents ↔ c ∈ net.components := List.mem_insertionSort _

theorem sortedComponents_perm (net : ComponentNetwork) :
    net.sortedComponents.Perm net.components := List.perm_insertionSort _ _

theorem sortedIIPs_perm (net : ComponentNetwork) : net.sortedIIPs.Perm net.iips :=
  List.perm_insertionSort _ _

theorem typeNames_arranged (typed : Dict String ValueType) :
    typeNames (arrangedDict id typed) = typeNames typed := by
  have hentries := congrArg Dict.entries (arrangedDict_arrangedDict id typed)
  simp only [arrangedDict] at hentries
  simp only [typeNames,sortedItems,arrangedDict,hentries]

theorem sortedItems_arranged {κ α : Type} (name : κ → String) (d : Dict κ α) (f : α → Value) :
    sortedItems name (arrangedDict name d).entries f = sortedItems name d.entries f := by
  have hentries := congrArg Dict.entries (arrangedDict_arrangedDict name d)
  simp only [arrangedDict] at hentries
  simp only [sortedItems,arrangedDict,hentries]

theorem sortedItems_mapValues {κ α : Type} (name : κ → String) (d : Dict κ α) {f : α → Value}
    {g : α → α} (h : ∀ a, f (g a) = f a) :
    sortedItems name (d.mapValues g).entries f = sortedItems name d.entries f := by
  have hmap := List.map_insertionSort (fun a b => byName (fun e : κ × α => name e.1) a b = true)
    (fun a b => byName (fun e : κ × α => name e.1) a b = true) (fun e => (e.1,g e.2)) d.entries
    fun a _ b _ => by simp only [byName_iff]
  simp only [sortedItems,Dict.mapValues]
  rw [← hmap,List.map_map]
  simp [Function.comp_def,h]

theorem componentItems_arranged {Net Net' : Type} (c : ComponentOf Net) (body : Option Net')
    (document : Value) :
    componentItems (arrangedFields c body) document = componentItems c document := by
  have hempty : (arrangedFields c body).portTypes.entries = [] ↔ c.portTypes.entries = [] := by
    simp [arrangedFields,Dict.mapValues,arrangedDict,← List.length_eq_zero_iff]
  have hports := sortedItems_arranged Direction.name c.ports strings
  have htypes : sortedItems Direction.name (arrangedFields c body).portTypes.entries typeNames =
      sortedItems Direction.name c.portTypes.entries typeNames := by
    rw [← sortedItems_arranged Direction.name c.portTypes]
    exact sortedItems_mapValues _ _ typeNames_arranged
  have hexternal := sortedItems_arranged id c.external .str
  simp only [componentItems,hempty,htypes]
  simp only [arrangedFields,hports,hexternal]

end ComponentNetwork
end AgentCentric.Network
