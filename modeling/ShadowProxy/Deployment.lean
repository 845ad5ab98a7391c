import ShadowProxy.Operations

/-! What one installation fixes: its config, its raw store and the libraries it runs on. -/

namespace ShadowProxy

/-- `lifespan` refuses to start without a default route. -/
structure Deployment where
  config : AppConfig
  defaultRoute : RouteConfig
  default_route : config.route "default" = some defaultRoute
  rawBackend : Option RawBackend
  py : Python
  pydantic : Pydantic
  requestHash : Json → Str

end ShadowProxy
