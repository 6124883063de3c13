import Vitals.Logging.Event
import Vitals.Registry.Basic

/-!
# What a registry tells its journal

The events of an execution, of a registration, of an inquiry, of the passing of time, and of the
end of a registry. They are functions of what happens and change nothing about it.
-/

namespace Vitals

open Logging

namespace Execution

/-- The event of an execution that has ended, and one more if the probe reported a name that is not
its own. -/
def events (execution : Execution) : List Event :=
  let name := execution.options.name
  let event (level : Level) (message : String) (fields : List (String × Field)) : Event :=
    ⟨level, "vitals_registry::health::executor", message, ("probe", .quoted name) :: fields⟩
  match execution.outcome? with
  | some (_, .returned result) =>
      event .debug "探针执行完成"
          [("status", .plain result.status.label), ("elapsed_ms", .number execution.elapsed)]
        :: (if result.name = name then []
          else [event .debug "探针上报名称与注册名称不一致，已修正" [("reported", .plain result.name)]])
  | some (_, .failed message _) =>
      [event .warn "探针执行失败" [("error", .plain message)]]
  | some (_, .panicked _) =>
      [event .warn "探针任务异常终止" [("error", .plain (execution.result.message.getD ""))]]
  | none =>
      [event .warn "探针执行超时" [("timeout_ms", .number execution.options.timeout)]]

end Execution

namespace Scheduler

def event (level : Level) (message name : String) (fields : List (String × Field)) : Event :=
  ⟨level, "vitals_registry::health::scheduler", message, ("probe", .plain name) :: fields⟩

def stopEvents (scheduler : Scheduler) (name : String) : List Event :=
  if scheduler.isPolling name then [event .info "停止探针轮询任务" name []] else []

/-- The events of starting the timer that options ask for. -/
def startEvents (scheduler : Scheduler) (options : Options) : List Event :=
  match options.interval with
  | none => scheduler.stopEvents options.name
  | some period =>
      (if scheduler.isPolling options.name then
          [event .debug "已停止旧的轮询任务" options.name []]
        else [])
        ++ [event .info "启动探针轮询任务" options.name [("interval_ms", .number period)]]

/-- The events of stopping everything. -/
def stopAllEvents (scheduler : Scheduler) : List Event :=
  scheduler.timers.map (fun timer => event .debug "轮询任务已停止" timer.name [])
    ++ [⟨.info, "vitals_registry::health::scheduler", "所有探针轮询任务已停止",
        [("count", .number scheduler.timers.length)]⟩]

/-- The background executions that ended between the clocks of two states, the first to end in
front. -/
def ended (before after : Scheduler) : List Execution :=
  let runs := after.ledger.runs.filter fun run =>
    run.owner == .timer && run.cancelledAt.isNone && before.now < run.execution.endsAt
      && run.execution.endsAt ≤ after.now
  (runs.map Run.execution).mergeSort fun left right => left.endsAt ≤ right.endsAt

/-- The events of the time between the clocks of two states. -/
def advanceEvents (before after : Scheduler) : List Event :=
  (ended before after).flatMap fun execution =>
    execution.events ++
      [event .debug "后台检测完成" execution.options.name
        [("status", .plain execution.result.status.label)]]

end Scheduler

namespace Registry

def event (level : Level) (message : String) (fields : List (String × Field)) : Event :=
  ⟨level, "vitals_registry::health::registry", message, fields⟩

/-- The events of a registration that is accepted. -/
def registerEvents (registry : Registry) (options : Options) : List Event :=
  (if (registry.find? options.name).isSome then
      [event .debug "替换已有探针注册" [("probe", .plain options.name)]]
    else [])
    ++ registry.scheduler.startEvents options
    ++ [event .info "探针已注册" [("probe", .plain options.name)]]

def destroyEvents (registry : Registry) : List Event :=
  if registry.destroyed then []
  else
    registry.scheduler.stopAllEvents
      ++ [event .info "注册表已销毁" [("count", .number registry.registrations.length)]]

end Registry

namespace Inquiry

/-- The events of an inquiry that is over: those of its executions, the first to end in front, and
one on the whole. -/
def events (inquiry : Inquiry) (question : Question) : List Event :=
  let executions := inquiry.executions.mergeSort fun left right => left.endsAt ≤ right.endsAt
  executions.flatMap Execution.events ++
    match question with
    | .one name =>
        if executions.isEmpty then
          [Registry.event .debug "请求的探针未注册" [("probe", .quoted name)]]
        else []
    | .all =>
        [Registry.event .debug "聚合检测完成"
          [("probes", .number executions.length), ("status", .plain inquiry.status.label)]]

end Inquiry

end Vitals
