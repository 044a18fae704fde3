import AgentCentric.Agent.Audited
import AgentCentric.Agent.Chains
import AgentCentric.Agent.Configured
import AgentCentric.Agent.Confinement
import AgentCentric.Agent.Resent
import AgentCentric.Agent.Respawn
import AgentCentric.Agent.Security
import AgentCentric.Analysis.Longest
import AgentCentric.Bills.Agenda
import AgentCentric.Bills.Amounts
import AgentCentric.Bills.Gate
import AgentCentric.Bills.Handled
import AgentCentric.Bills.Kept
import AgentCentric.Bills.Totals
import AgentCentric.Boot.Bundle
import AgentCentric.Boot.Chain
import AgentCentric.Boot.Nodes
import AgentCentric.Boot.Quorum
import AgentCentric.Boot.Resolvable
import AgentCentric.Boot.State
import AgentCentric.Chat.Pins
import AgentCentric.Driver.Binds
import AgentCentric.Driver.Ledger
import AgentCentric.Driver.Mediation
import AgentCentric.Driver.Planned
import AgentCentric.Driver.Reviewed
import AgentCentric.Flow.Agreement
import AgentCentric.Flow.Deadlock
import AgentCentric.Flow.Enforcement
import AgentCentric.Holdout.Appends
import AgentCentric.Holdout.Priorities
import AgentCentric.Manager.Cancel
import AgentCentric.Manager.Exactness
import AgentCentric.Manager.Fleet
import AgentCentric.Manager.Governance
import AgentCentric.Manager.Handoff
import AgentCentric.Manager.Isolation
import AgentCentric.Manager.Returns
import AgentCentric.Manager.StepLimit
import AgentCentric.N8n.Compile
import AgentCentric.N8n.Lossless
import AgentCentric.Network.Diagram
import AgentCentric.Network.RoundTrip
import AgentCentric.Ontology.Canonical
import AgentCentric.Ontology.Hierarchy
import AgentCentric.Ontology.Indexed
import AgentCentric.Ontology.Projection
import AgentCentric.Ontology.RdfExport
import AgentCentric.Ontology.Resolve
import AgentCentric.Provider.Approval
import AgentCentric.Provider.LedgerFile
import AgentCentric.Provider.Retry
import AgentCentric.Ui.Activity
import AgentCentric.Ui.Markup
import AgentCentric.Ui.Order
import AgentCentric.Workspace.Confined
