import RelyLoop.Adapters.SolrPivot
import RelyLoop.Agent.HistoryRuns
import RelyLoop.Agent.OneMutation
import RelyLoop.Agent.ToolResults
import RelyLoop.Agent.Truncation
import RelyLoop.Baselines.Lineages
import RelyLoop.Baselines.Resolver
import RelyLoop.Budget.GateRuns
import RelyLoop.Chains.Directions
import RelyLoop.Chains.ProposalSafety
import RelyLoop.Chains.Recent
import RelyLoop.Chains.StopReason
import RelyLoop.Confidence.Directions
import RelyLoop.Confidence.Outcomes
import RelyLoop.Confidence.Shape
import RelyLoop.ConfigRepos.Matching
import RelyLoop.Creation.Tool
import RelyLoop.Eval.Kappa
import RelyLoop.Followups.Contract
import RelyLoop.Followups.NarrowPath
import RelyLoop.Followups.RoundTrip
import RelyLoop.Followups.Trigger
import RelyLoop.Judgments.Finality
import RelyLoop.Judgments.GenerationRuns
import RelyLoop.Judgments.JudgeContract
import RelyLoop.Judgments.Routing
import RelyLoop.Llm.SingleFlight
import RelyLoop.Normalizers.Idempotent
import RelyLoop.Normalizers.LocalParams
import RelyLoop.Paging.DocumentRuns
import RelyLoop.Paging.EndpointRuns
import RelyLoop.Paging.QueryPages
import RelyLoop.Paging.TrialPages
import RelyLoop.Proposals.DiffWriters
import RelyLoop.Proposals.MergeRuns
import RelyLoop.Proposals.OpenPrRequests
import RelyLoop.Proposals.ParamsFile
import RelyLoop.Proposals.ProposalRuns
import RelyLoop.Proposals.PullRecording
import RelyLoop.Proposals.PullRequestRuns
import RelyLoop.Proposals.ReconcileRuns
import RelyLoop.Python.Dict
import RelyLoop.Queries.CsvUpload
import RelyLoop.Ranking.Mirrored
import RelyLoop.Redaction.Safety
import RelyLoop.Spaces.Midpoints
import RelyLoop.Spaces.Narrowing
import RelyLoop.Spaces.Remapping
import RelyLoop.Spaces.StarterParity
import RelyLoop.Spaces.WinnerBounds
import RelyLoop.Studies.BestSoFar
import RelyLoop.Studies.Cascade
import RelyLoop.Studies.ChainGate
import RelyLoop.Studies.Completion
import RelyLoop.Studies.ConfigRuns
import RelyLoop.Studies.FollowupRuns
import RelyLoop.Studies.StatusRuns
import RelyLoop.Templates.PrettyPrintExact
import RelyLoop.Templates.RenderSafety
import RelyLoop.Text.BoundedWords
import RelyLoop.Text.Utf16
import RelyLoop.Trials.Agreement
import RelyLoop.Trials.BaselineRuns
import RelyLoop.Trials.FrozenWinner
import RelyLoop.Trials.ReplenishRuns
import RelyLoop.Trials.Retrieval
import RelyLoop.Ubi.Grades
import RelyLoop.Ubi.Provenance
import RelyLoop.Ubi.Reader
import RelyLoop.Ubi.ScanReports
